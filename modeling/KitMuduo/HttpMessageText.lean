import KitMuduo.DecimalText
import KitMuduo.HttpMessage

/-!
# The text of requests and responses

`toString` of `http_request.cpp` and `http_response.cpp` with the conversions it
needs.  Both first store the headers that follow from the other fields and then
print every header in the order in which the hash table holds it.  That order
is not specified, so it is an argument here: a walk over the table.
-/

namespace KitMuduo

open DecimalText

def kSpace : Bytes := ascii " "

def kColon : Bytes := ascii ":"

def kCRLF : Bytes := ascii "\r\n"

def find_first_not_of (str : Bytes) (c : UInt8) : Option Nat :=
  str.findIdx? fun other => other ≠ c

def find_last_not_of (str : Bytes) (c : UInt8) : Option Nat :=
  (find_first_not_of str.reverse c).map fun back => str.length - 1 - back

/-- Strip the spaces at both ends.  Of a string of spaces one stays. -/
def DelSpaceHelper (str : Bytes) : Bytes :=
  if str = [] then
    []
  else
    let pos := (find_first_not_of str 32).getD 0
    let pos2 := (find_last_not_of str 32).getD 0
    (str.drop pos).take (pos2 - pos + 1)

/-- One walk over a `std::unordered_map`: every element once. -/
structure Traversal (map : StringMap) where
  elements : List (Bytes × Bytes)
  nodup : (elements.map Prod.fst).Nodup
  mem_iff : ∀ name val,
    (name, val) ∈ elements ↔ map.lookup name = some val

namespace Traversal

def empty : Traversal ∅ where
  elements := []
  nodup := List.nodup_nil
  mem_iff := by simp

/-- A walk that meets the element stored last first. -/
def insert {map : StringMap} (walk : Traversal map) (name val : Bytes) :
    Traversal (map.insert name val) where
  elements := (name, val) :: walk.elements.filter (·.1 ≠ name)
  nodup := by
    have others : ((walk.elements.filter (·.1 ≠ name)).map Prod.fst).Nodup :=
      walk.nodup.sublist (List.filter_sublist.map Prod.fst)
    rw [List.map_cons, List.nodup_cons]
    refine ⟨?_, others⟩
    simp
  mem_iff := by
    intro other otherVal
    by_cases same : other = name
    · subst same
      simp [eq_comm]
    · rw [Finmap.lookup_insert_of_ne _ same, ← walk.mem_iff]
      simp [same]

end Traversal

/-- Store the elements of a list one after another. -/
def insertAll (map : StringMap) (elements : List (Bytes × Bytes)) :
    StringMap :=
  elements.foldl (fun map element => map.insert element.1 element.2) map

theorem lookup_insertAll_of_not_mem {name : Bytes} {map : StringMap}
    {elements : List (Bytes × Bytes)}
    (absent : name ∉ elements.map Prod.fst) :
    (insertAll map elements).lookup name = map.lookup name := by
  induction elements generalizing map with
  | nil => rfl
  | cons element elements ih =>
      rw [List.map_cons, List.mem_cons, not_or] at absent
      exact (ih absent.2).trans (Finmap.lookup_insert_of_ne _ absent.1)

theorem lookup_insertAll_of_mem {name val : Bytes} {map : StringMap}
    {elements : List (Bytes × Bytes)}
    (nodup : (elements.map Prod.fst).Nodup)
    (member : (name, val) ∈ elements) :
    (insertAll map elements).lookup name = some val := by
  induction elements generalizing map with
  | nil => cases member
  | cons element elements ih =>
      rw [List.map_cons, List.nodup_cons] at nodup
      rcases List.mem_cons.mp member with rfl | member
      · exact (lookup_insertAll_of_not_mem nodup.1).trans
          (Finmap.lookup_insert _)
      · exact ih nodup.2 member

/-- Storing what a walk meets builds the map again. -/
theorem Traversal.insertAll_elements {map : StringMap}
    (walk : Traversal map) : insertAll ∅ walk.elements = map := by
  apply Finmap.ext_lookup
  intro name
  cases stored : map.lookup name with
  | none =>
      apply lookup_insertAll_of_not_mem
      rintro member
      obtain ⟨⟨_, val⟩, inWalk, rfl⟩ := List.mem_map.mp member
      rw [(walk.mem_iff _ _).mp inWalk] at stored
      cases stored
  | some val =>
      exact lookup_insertAll_of_mem walk.nodup
        ((walk.mem_iff _ _).mpr stored)

/-- One line of the header loop. -/
def headerLine (header : Bytes × Bytes) : Bytes :=
  header.1 ++ kColon ++ kSpace ++ header.2 ++ kCRLF

/-- The name and the value that `addHeader(start, colon, end)` reads from the
two sides of the colon.  Without one of them it adds nothing. -/
def trimmedHeader (head val : Bytes) : Option (Bytes × Bytes) :=
  if DelSpaceHelper head = [] then
    none
  else if DelSpaceHelper val = [] then
    none
  else
    some (DelSpaceHelper head, DelSpaceHelper val)

namespace Version

/-- `Version(int32_t)`: outside the enumeration it prints as `kUnknow`. -/
def ofInt (version : Int) : Version :=
  if version = 1 then kHttp10
  else if version = 2 then kHttp11
  else if version = 3 then kRtsp10
  else kUnknow

end Version

namespace ContentType

/-- `ContentType(int32_t)`: outside the enumeration it prints as JSON. -/
def ofInt (contentType : Int) : ContentType :=
  if contentType = 0 then kUnknowType
  else if contentType = 2 then kXmlType
  else if contentType = 3 then kPlainType
  else if contentType = 4 then kImageJpgType
  else if contentType = 5 then kMultiForm
  else if contentType = 6 then kOctetStream
  else if contentType = 7 then kHtml
  else if contentType = 8 then kCss
  else if contentType = 9 then kJavaScript
  else kJsonType

def toString : ContentType → Bytes
  | kJsonType => ascii "application/json"
  | kXmlType => ascii "application/xml"
  | kPlainType => ascii "text/plain"
  | kImageJpgType => ascii "image/jpeg"
  | kMultiForm => ascii "multipart/form-data"
  | kOctetStream => ascii "application/octet-stream"
  | kHtml => ascii "text/html"
  | kCss => ascii "text/css"
  | kJavaScript => ascii "text/javascript"
  | kUnknowType => ascii "application/json"

end ContentType

namespace StateCode

/-- `s_m_codeMessageMap` at the start of the program. -/
def codeMessageMap : List (Int × Bytes) :=
  [(0, ascii ""), (200, ascii "OK"), (204, ascii "No Content"),
    (301, ascii "Moved Permanently"), (302, ascii "Move temporarily"),
    (400, ascii "Bad Request"), (403, ascii "Forbidden"),
    (404, ascii "Not Found"), (405, ascii "Method Not Allowed"),
    (454, ascii "Session Not Found"), (455, ascii "Method Not Valid"),
    (500, ascii "Internal Server Error"), (503, ascii "Service Unavailable")]

def toString (code : Int) : Bytes :=
  if 100 ≤ code ∧ code < 600 then digits code.toNat else []

/-- `message`, and the map behind it, where `operator[]` has stored an empty
message for a code that had none. -/
def messageFrom (map : List (Int × Bytes)) (code : Int) :
    Bytes × List (Int × Bytes) :=
  match map.lookup code with
  | some text => (text, map)
  | none => ([], map ++ [(code, [])])

/-- The map when the messages of some codes have been printed. -/
def mapAfter (printed : List Int) : List (Int × Bytes) :=
  printed.foldl (fun map code => (messageFrom map code).2) codeMessageMap

/-- The message of a code, whatever has been printed before. -/
def message (code : Int) : Bytes :=
  (messageFrom codeMessageMap code).1

theorem messageFrom_fst (map : List (Int × Bytes)) (code : Int) :
    (messageFrom map code).1 = (map.lookup code).getD [] := by
  unfold messageFrom
  split
  · next text found => rw [found, Option.getD_some]
  · next absent => rw [absent, Option.getD_none]

theorem lookup_messageFrom (map : List (Int × Bytes)) (code other : Int) :
    (messageFrom map code).2.lookup other =
      (map.lookup other).or (if other = code then some [] else none) := by
  unfold messageFrom
  split
  · next text found =>
      by_cases same : other = code
      · rw [same, found, Option.some_or]
      · rw [if_neg same, Option.or_none]
  · rw [List.lookup_append]
    congr 1
    rw [List.lookup_cons]
    split
    · next same => rw [if_pos (beq_iff_eq.mp same)]
    · next differs =>
        rw [if_neg (beq_eq_false_iff_ne.mp differs), List.lookup_nil]

/-- Printing changes neither a message nor whether a code with one is found. -/
theorem lookup_mapAfter (printed : List Int) (code : Int) :
    (messageFrom (mapAfter printed) code).1 = message code ∧
      ((codeMessageMap.lookup code).isSome = true →
        ((mapAfter printed).lookup code).isSome = true) := by
  have same : ∀ map : List (Int × Bytes),
      ((printed.foldl (fun map code => (messageFrom map code).2) map).lookup
          code).getD [] = (map.lookup code).getD [] ∧
        ((map.lookup code).isSome = true →
          ((printed.foldl (fun map code => (messageFrom map code).2)
            map).lookup code).isSome = true) := by
    induction printed with
    | nil => exact fun map => ⟨rfl, id⟩
    | cons first printed ih =>
        intro map
        have next := ih (messageFrom map first).2
        rw [lookup_messageFrom] at next
        refine ⟨next.1.trans ?_, fun known => next.2 ?_⟩
        · cases map.lookup code with
          | some text => rfl
          | none =>
              rw [Option.none_or]
              split <;> rfl
        · cases found : map.lookup code with
          | some text => rfl
          | none =>
              rw [found] at known
              cases known
  rw [message, messageFrom_fst, messageFrom_fst]
  exact same codeMessageMap

end StateCode

namespace HttpRequest

def addHeader (request : HttpRequest) (head val : Bytes) : HttpRequest :=
  { request with headers := request.headers.insert head val }

/-- The overload on pointers, which a parser calls at a colon. -/
def addHeaderLine (request : HttpRequest) (head val : Bytes) :
    Bool × HttpRequest :=
  match trimmedHeader head val with
  | none => (false, request)
  | some (head, val) => (true, request.addHeader head val)

/-- The first half of `toString`, which stores headers of its own. -/
def setOwnHeaders (request : HttpRequest) : HttpRequest :=
  let length :=
    if request.body.data.length ≠ 0 then
      request.headers.insert (ascii "Content-Length")
        (digits request.body.data.length)
    else
      request.headers
  let type :=
    if request.body.contentType ≠ .kUnknowType then
      length.insert (ascii "Content-Type") request.body.contentType.toString
    else
      length
  { request with headers := type }

def toString (request : HttpRequest)
    (walk : Traversal request.setOwnHeaders.headers) : Bytes × HttpRequest :=
  (request.method.toString ++ kSpace ++ request.path ++ kSpace ++
      request.version.toString ++ kCRLF ++
      walk.elements.flatMap headerLine ++ kCRLF ++ request.body.data,
    request.setOwnHeaders)

end HttpRequest

namespace HttpResponse

def addHeaderLine (response : HttpResponse) (head val : Bytes) :
    Bool × HttpResponse :=
  match trimmedHeader head val with
  | none => (false, response)
  | some (head, val) => (true, response.addHeader head val)

def statusLine (response : HttpResponse) : Bytes :=
  response.version.toString ++ kSpace ++
    StateCode.toString response.stateCode ++ kSpace ++
    StateCode.message response.stateCode ++ kCRLF

/-- The `Content-Type` value of a body that has one. -/
def contentTypeStr (contentType : ContentType) : Bytes :=
  contentType.toString ++ ascii "; " ++ ascii "charset=utf-8" ++
    if contentType = .kMultiForm then
      ascii "; " ++ ascii "boundary=----WebKitFormBoundaryNQJ0YrO2NeaUfM7n"
    else
      []

/-- The part of `toString` that stores headers of its own. -/
def setOwnHeaders (response : HttpResponse) : HttpResponse :=
  let connection :=
    if response.version = .kHttp11 ∧ response.connectionClosed = false then
      (response.headers.insert (ascii "Connection") (ascii "keep-alive")).insert
        (ascii "Keep-Alive") (ascii "timeout=5, max=100")
    else
      response.headers.insert (ascii "Connection") (ascii "close")
  let type :=
    if response.body.contentType ≠ .kUnknowType then
      connection.insert (ascii "Content-Type")
        (contentTypeStr response.body.contentType)
    else
      connection
  let length :=
    if response.body.data.length ≠ 0 then
      type.insert (ascii "Content-Length") (digits response.body.data.length)
    else
      type
  { response with headers := length }

def toString (response : HttpResponse)
    (walk : Traversal response.setOwnHeaders.headers) :
    Bytes × HttpResponse :=
  (response.statusLine ++ walk.elements.flatMap headerLine ++ kCRLF ++
      response.body.data,
    response.setOwnHeaders)

end HttpResponse

end KitMuduo
