import KitMuduo.HttpContentType
import KitMuduo.HttpParserAgreement
import KitMuduo.LLhttpParserReads
import KitMuduo.MultiFormParserInverse
import KitMuduo.UploadScanner

/-!
# A form from the client to the handler

A client encodes a form and sends it in the body of a request; the bytes arrive
in reads of any size, llhttp hands them to the callbacks in fragments, and the
handler has `HttpContext::Bind` decode the body.  The handler gets the parts
the client encoded, unless the boundary contains a word by which `Bind` takes
the body for something else.
-/

namespace KitMuduo

open FirstRule GatheredValues ListSearch

/-- `Bind` with the functions of the type that is bound; `none` stands for
`false`, which is returned as well when one of them throws. -/
def HttpContext.Bind {α : Type} (fromJson : Bytes → Option α)
    (from_multi_form : PartMap → Option α)
    (request : HttpRequest) : Option α :=
  match request.body.contentType with
  | .kJsonType => fromJson request.body.data
  | .kMultiForm =>
      from_multi_form (MultiFormParser.parse request.body.data
        (request.getHeader (ascii "Content-Type")))
  | _ => none

namespace MultiFormParser

/-- A form and what the client puts around its parts. -/
structure Upload where
  boundary : Bytes
  preamble : Bytes := []
  epilogue : Bytes := []
  parts : List UploadPart

namespace Upload

def body (upload : Upload) : Bytes :=
  encode upload.boundary upload.preamble upload.epilogue upload.parts

structure Allowed (upload : Upload) : Prop where
  boundary : BoundaryAllowed upload.boundary
  preamble : PreambleAllowed upload.boundary upload.preamble
  parts : ∀ part ∈ upload.parts, PartAllowed upload.boundary part
  lines : ∀ part ∈ upload.parts, LinesAllowed upload.boundary part

/-- The boundary contains none of the words that are looked for before the one
for forms. -/
def Silent (upload : Upload) : Prop :=
  ∀ word ∈ [ascii "json", ascii "xml", ascii "plain", ascii "jpeg"],
    ContentType.contains upload.boundary word = false

/-- The map of the parts the parser makes of the body. -/
def stored (upload : Upload) : PartMap :=
  (upload.parts.map UploadPart.formPart).foldl storePart ∅

variable {upload : Upload}

theorem parse_body (allowed : upload.Allowed) :
    parse upload.body (multipartType upload.boundary) = upload.stored :=
  parse_encode_eq allowed.boundary allowed.preamble upload.epilogue
    allowed.parts allowed.lines

theorem holdsParts_stored (allowed : upload.Allowed) :
    HoldsParts upload.stored upload.parts where
  names := by
    intro name
    rw [stored, mem_stored_iff fun _ _ => rfl]
    constructor
    · exact And.right
    · intro member
      obtain ⟨part, inParts, rfl⟩ := List.mem_map.mp member
      exact ⟨(allowed.parts part inParts).name_ne, member⟩
  last := by
    intro front part back split notLater
    have member : part ∈ upload.parts := by simp [split]
    have part_allowed := allowed.parts part member
    exact ⟨part.formPart,
      lookup_stored (fun _ _ => rfl) split part_allowed.name_ne notLater,
      holdsPart_formPart part_allowed.distinct⟩

/-- A word without an equals sign stands in front of the boundary or in it. -/
theorem contains_multipartType (boundary : Bytes) {word : Bytes}
    (nonempty : word ≠ []) (noEquals : 61 ∉ word) :
    ContentType.contains (multipartType boundary) word =
      (ContentType.contains (ascii "multipart/form-data; boundary") word ||
        ContentType.contains boundary word) := by
  have lowered : (multipartType boundary).map ContentType.tolower =
      (ascii "multipart/form-data; boundary").map ContentType.tolower ++
        61 :: boundary.map ContentType.tolower := by
    rw [multipartType, List.map_append]
    rfl
  rw [Bool.eq_iff_iff, Bool.or_eq_true, ContentType.contains_iff,
    ContentType.contains_iff, ContentType.contains_iff, lowered]
  exact infix_append_cons_iff nonempty noEquals

/-- A word that does not stand in front of the boundary stands in it. -/
theorem contains_boundary (boundary word : Bytes)
    (nonempty : word ≠ []) (noEquals : 61 ∉ word)
    (absent : ContentType.contains
      (ascii "multipart/form-data; boundary") word = false) :
    ContentType.contains (multipartType boundary) word =
      ContentType.contains boundary word := by
  rw [contains_multipartType boundary nonempty noEquals, absent, Bool.false_or]

theorem contains_multipart (boundary : Bytes) :
    ContentType.contains (multipartType boundary) (ascii "multipart") =
      true := by
  have inFront : ContentType.contains
      (ascii "multipart/form-data; boundary") (ascii "multipart") = true := by
    decide
  rw [contains_multipartType boundary (by decide) (by decide), inFront,
    Bool.true_or]

/-- The type of the body is that of a form exactly if the boundary is
silent. -/
theorem type_eq_multiForm_iff (upload : Upload) :
    ContentType.FromString (multipartType upload.boundary) = .kMultiForm ↔
      upload.Silent := by
  have json := contains_boundary upload.boundary (ascii "json")
    (by decide) (by decide) (by decide)
  have xml := contains_boundary upload.boundary (ascii "xml")
    (by decide) (by decide) (by decide)
  have plain := contains_boundary upload.boundary (ascii "plain")
    (by decide) (by decide) (by decide)
  have jpeg := contains_boundary upload.boundary (ascii "jpeg")
    (by decide) (by decide) (by decide)
  rw [ContentType.FromString_eq_classify, ContentType.typeWords]
  simp only [classify, contains_multipart, json, xml, plain, jpeg, Silent,
    List.forall_mem_cons]
  cases ContentType.contains upload.boundary (ascii "json") <;>
    cases ContentType.contains upload.boundary (ascii "xml") <;>
    cases ContentType.contains upload.boundary (ascii "plain") <;>
    cases ContentType.contains upload.boundary (ascii "jpeg") <;> simp

theorem body_ne_nil (upload : Upload) : upload.body ≠ [] := by
  rw [body, encode_eq, delimiter_eq]
  simp

end Upload

end MultiFormParser

namespace HttpContext

open MultiFormParser

/-- `Bind` hands the parts of `map` to the type's own function, whatever the
type. -/
def BindsForm (request : HttpRequest) (map : PartMap) : Prop :=
  ∀ (α : Type) (fromJson : Bytes → Option α)
    (from_multi_form : PartMap → Option α),
    Bind fromJson from_multi_form request = from_multi_form map

variable {request : HttpRequest} {map : PartMap}

theorem bindsForm_parse (form : request.body.contentType = .kMultiForm) :
    BindsForm request (parse request.body.data
      (request.getHeader (ascii "Content-Type"))) := by
  intro α fromJson from_multi_form
  rw [Bind, form]

/-- A type that has no function for JSON and a total one for forms is bound to
forms only. -/
theorem BindsForm.contentType (binds : BindsForm request map) :
    request.body.contentType = .kMultiForm := by
  have bound := binds Unit (fun _ => none) fun _ => some ()
  by_contra other
  rw [Bind] at bound
  split at bound
  · cases bound
  · next form => exact other form
  · cases bound

end HttpContext

namespace RequestFragments

open MultiFormParser

variable {f : RequestFragments} {upload : Upload}

/-- The elements that the fragments make up. -/
def whole (f : RequestFragments) : RequestElements where
  method := f.method.flatten
  url := f.url.flatten
  version := f.version.flatten
  headers := f.headers.map fun header => (header.1.flatten, header.2.flatten)
  body := f.body.map List.flatten
  trailers := f.trailers.map fun header => (header.1.flatten, header.2.flatten)

theorem whole_fragments (f : RequestFragments) :
    f.whole.fragments = f.joined := by
  simp [whole, joined, RequestElements.fragments]

theorem Intact.assembled_eq (intact : f.Intact) :
    f.assembled = f.whole.fragments.assembled := by
  rw [whole_fragments]
  exact f.assembled_eq_iff.mpr intact

theorem bodyOf_contentType (headers : StringMap) {elements : List Bytes}
    (nonempty : elements ≠ []) {value : Bytes}
    (type : (headers.lookup (ascii "Content-Type")).getD [] = value)
    (valued : value ≠ []) :
    (bodyOf headers elements).contentType = ContentType.FromString value := by
  obtain ⟨front, last, rfl⟩ := List.eq_nil_or_concat elements |>.resolve_left
    nonempty
  simp [bodyOf, type, LLhttpParser.addBody, Body.setContentType,
    Body.appendData, valued]

/-- The request is put together as it was sent, and carries the upload: its
media type in one header and its bytes in the body. -/
structure Carries (f : RequestFragments) (upload : Upload) : Prop where
  intact : f.Intact
  type : f.whole.valuesOf (ascii "Content-Type") =
    [multipartType upload.boundary]
  body : f.whole.body.flatten = upload.body

theorem Carries.getHeader (carries : f.Carries upload) :
    f.assembled.getHeader (ascii "Content-Type") =
      multipartType upload.boundary := by
  rw [carries.intact.assembled_eq, RequestElements.getHeader_assembled,
    if_neg (by decide), carries.type, List.flatten_singleton]

theorem Carries.data (carries : f.Carries upload) :
    f.assembled.body.data = upload.body := by
  rw [assembled, WrittenRequest.bodyOf_data]
  exact carries.body

theorem Carries.contentType (carries : f.Carries upload) :
    f.assembled.body.contentType =
      ContentType.FromString (multipartType upload.boundary) := by
  apply bodyOf_contentType
  · intro none
    have empty := carries.body
    rw [whole, none] at empty
    exact upload.body_ne_nil empty.symm
  · exact carries.getHeader
  · simp [multipartType, ascii]

/-- What is bound is the form. -/
theorem Carries.bindsForm_iff (carries : f.Carries upload)
    (allowed : upload.Allowed) :
    (∃ map, HoldsParts map upload.parts ∧
        HttpContext.BindsForm f.assembled map) ↔ upload.Silent := by
  rw [← upload.type_eq_multiForm_iff, ← carries.contentType]
  constructor
  · rintro ⟨map, holds, binds⟩
    exact binds.contentType
  · intro form
    have binds := HttpContext.bindsForm_parse form
    rw [carries.data, carries.getHeader, Upload.parse_body allowed] at binds
    exact ⟨_, Upload.holdsParts_stored allowed, binds⟩

end RequestFragments

namespace RequestStream

open MultiFormParser

variable {σ : Type*} {llhttp : LLhttp σ} {deliveries : List Delivery}

/-- A request that carries an upload binds its parts if the boundary is
silent. -/
def BindsUpload (d : Delivery) (request : HttpRequest) : Prop :=
  ∀ upload : Upload, upload.Allowed → d.fragments.Carries upload →
    ((∃ map, HoldsParts map upload.parts ∧
        HttpContext.BindsForm request map) ↔ upload.Silent)

theorem bindsUpload_completions (start : Nat) (deliveries : List Delivery) :
    List.Forall₂ (fun d done => BindsUpload d done.1) deliveries
      (completions start deliveries) := by
  induction deliveries generalizing start with
  | nil => exact .nil
  | cons d deliveries ih =>
      exact .cons (fun upload allowed carries =>
        carries.bindsForm_iff allowed) (ih _)

/-- However the reads cut a stream of requests, each upload in it is bound to
the parts the client sent, unless its boundary is taken for a media type. -/
theorem uploads_bound {reads : List Bytes} {turns : Nat}
    (delivers : llhttp.Delivers deliveries reads)
    (enough : deliveries.length < turns) :
    ∃ completed, requests llhttp turns reads = some completed ∧
      List.Forall₂ (fun d done => BindsUpload d done.1) deliveries
        completed :=
  ⟨completions 0 deliveries, requests_of_delivers delivers enough,
    bindsUpload_completions 0 deliveries⟩

/-- A form with one file. -/
def fileUpload : Upload where
  boundary := ascii "B"
  parts := [samplePart (ascii "X-Field") (ascii "one")]

def fileHead : Bytes :=
  ascii "POST /f HTTP/1.1\r\n" ++
    ascii "Content-Type: multipart/form-data; boundary=B\r\n" ++
    ascii "Content-Length: 115\r\n\r\n"

/-- The upload is cut in its media type and in its body. -/
def fileDelivery : Delivery where
  request := {
    bytes := fileHead ++ fileUpload.body
    method := ⟨0, 4⟩
    url := ⟨5, 2⟩
    version := ⟨13, 3⟩
    headers := [(⟨18, 12⟩, ⟨32, 31⟩), (⟨65, 14⟩, ⟨81, 3⟩)]
    body := [⟨fileHead.length, fileUpload.body.length⟩]
    trailers := [] }
  fragments := {
    method := [ascii "POST"]
    url := [ascii "/f"]
    version := [ascii "1.1"]
    headers :=
      [([ascii "Content-Type"],
          [ascii "multipart/", ascii "form-data; boundary=B"]),
        ([ascii "Content-Length"], [ascii "115"])]
    body := [[fileUpload.body.take 40, fileUpload.body.drop 40]]
    trailers := [] }

def fileReads : List Bytes :=
  [fileHead.take 42, fileHead.drop 42 ++ fileUpload.body.take 40,
    fileUpload.body.drop 40]

theorem fileUpload_delivers :
    UploadScanner.llhttp.Delivers [fileDelivery] fileReads := by
  refine @LLhttp.Delivers.request _ _ _ _
    [fileHead.take 42, fileHead.drop 42 ++ fileUpload.body.take 40] []
    (fileUpload.body.drop 40) [] _ _ _ _
    (.cons (by decide +kernel) rfl (.cons (by decide +kernel) rfl .nil))
    (by decide +kernel) rfl (by decide +kernel) rfl ?_ (.empty .nil)
  exact ⟨⟨by decide +kernel, by decide +kernel⟩,
    ⟨by decide +kernel, by decide +kernel⟩,
    ⟨by decide +kernel, by decide +kernel⟩,
    .cons ⟨⟨by decide +kernel, by decide +kernel⟩,
      ⟨by decide +kernel, by decide +kernel⟩⟩
      (.cons ⟨⟨by decide +kernel, by decide +kernel⟩,
        ⟨by decide +kernel, by decide +kernel⟩⟩ .nil),
    .cons ⟨by decide +kernel, by decide +kernel⟩ .nil, .nil⟩

theorem fileUpload_allowed : fileUpload.Allowed where
  boundary := boundaryAllowed_B
  preamble := preambleAllowed_nil _
  parts := List.forall_mem_singleton.mpr
    (partAllowed_samplePart (by decide) (by decide))
  lines := List.forall_mem_singleton.mpr (linesAllowed_samplePart _)

theorem fileUpload_carried : fileDelivery.fragments.Carries fileUpload where
  intact := ⟨by decide, by decide, by decide, by simp [fileDelivery]⟩
  type := by decide +kernel
  body := by decide +kernel

/-- The handler has the file that was sent in three reads. -/
theorem uploads_bound_file : ∃ done map,
    requests UploadScanner.llhttp 2 fileReads = some [done] ∧
      HoldsParts map fileUpload.parts ∧
      HttpContext.BindsForm done.1 map := by
  obtain ⟨completed, parsed, bound⟩ :=
    @uploads_bound _ _ _ _ 2 fileUpload_delivers (by decide)
  obtain ⟨done, rest, binds, none, rfl⟩ := List.forall₂_cons_left_iff.mp bound
  rw [List.forall₂_nil_left_iff] at none
  subst none
  have silent : fileUpload.Silent := by
    rw [Upload.Silent, List.forall_mem_cons, List.forall_mem_cons,
      List.forall_mem_cons, List.forall_mem_singleton]
    exact ⟨by decide, by decide, by decide, by decide⟩
  obtain ⟨map, holds, form⟩ :=
    (binds fileUpload fileUpload_allowed fileUpload_carried).mpr silent
  exact ⟨done, map, parsed, holds, form⟩

end RequestStream

end KitMuduo
