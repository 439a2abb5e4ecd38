import KitMuduo.GatheredValues
import KitMuduo.LLhttpDelivery

/-!
# What the callbacks make of fragments

The callbacks for the url, the header values and the body append, those for the
method, the version and the header names overwrite.  A request is put together
as if it had come in one piece exactly if the last fragments of these three say
the same as the whole elements.
-/

namespace KitMuduo

open GatheredValues ReadCuts

namespace LLhttpParser

variable {σ : Type*} {p : LLhttpParser σ} {first second : Bytes}

theorem onMethod_onMethod :
    (p.onMethod first).onMethod second = p.onMethod second :=
  rfl

theorem onUrl_onUrl : (p.onUrl first).onUrl second = p.onUrl (first ++ second) := by
  simp [onUrl]

theorem onVersion_onVersion :
    (p.onVersion first).onVersion second = p.onVersion second := by
  by_cases request : p.type = .ReqType <;>
    simp [onVersion, request, setRequest, setResponse]

theorem onHeaderField_onHeaderField :
    (p.onHeaderField first).onHeaderField second = p.onHeaderField second :=
  rfl

theorem headerContext_addValue (ctx : HeaderContext) (data : Bytes) :
    ctx.addValue data =
      { ctx with headers := addValue [] ctx.curHeader data ctx.headers } := by
  unfold HeaderContext.addValue addValue
  split <;> rfl

theorem addValue_addValue {ctx : HeaderContext} :
    (ctx.addValue first).addValue second = ctx.addValue (first ++ second) := by
  by_cases unnamed : ctx.curHeader = []
  · simp [HeaderContext.addValue, unnamed]
  · unfold HeaderContext.addValue
    rw [if_neg unnamed, if_neg unnamed, if_neg unnamed, Finmap.lookup_insert,
      Finmap.insert_insert, Option.getD_some, List.append_assoc]

theorem onHeaderValue_onHeaderValue :
    (p.onHeaderValue first).onHeaderValue second =
      p.onHeaderValue (first ++ second) :=
  congrArg (fun ctx => { p with headerCtx := ctx }) addValue_addValue

theorem addBody_addBody {body : Body} {contentTypeStr : Bytes} :
    addBody (addBody body contentTypeStr first) contentTypeStr second =
      addBody body contentTypeStr (first ++ second) := by
  simp [addBody, Body.setContentType, Body.appendData]

theorem onBody_request (request : p.type = .ReqType) (data : Bytes) :
    p.onBody data = p.setRequest { p.context.request with
      body := addBody p.context.request.body
        (p.context.request.getHeader (ascii "Content-Type")) data } :=
  if_pos request

theorem onBody_response (response : p.type ≠ .ReqType) (data : Bytes) :
    p.onBody data = p.setResponse { p.context.response with
      body := addBody p.context.response.body
        (p.context.response.getHeader (ascii "Content-Type")) data } :=
  if_neg response

theorem onBody_onBody :
    (p.onBody first).onBody second = p.onBody (first ++ second) := by
  by_cases request : p.type = .ReqType
  · rw [onBody_request request, onBody_request request, onBody_request]
    · exact congrArg (fun body => p.setRequest
        { p.context.request with body := body }) addBody_addBody
    · exact request
  · rw [onBody_response request, onBody_response request, onBody_response]
    · exact congrArg (fun body => p.setResponse
        { p.context.response with body := body }) addBody_addBody
    · exact request

/-- What a header line adds, if its name and value arrive in fragments. -/
def addLine (p : LLhttpParser σ) (header : List Bytes × List Bytes) :
    LLhttpParser σ :=
  (p.onHeaderField (header.1.getLastD [])).onHeaderValue header.2.flatten

theorem addLine_eq (header : List Bytes × List Bytes) :
    p.addLine header =
      { p with headerCtx := {
          curHeader := header.1.getLastD []
          url := p.headerCtx.url
          headers := addValue [] (header.1.getLastD []) header.2.flatten
            p.headerCtx.headers } } := by
  rw [addLine, onHeaderValue, headerContext_addValue]
  rfl

theorem foldl_headerCallbacks {header : List Bytes × List Bytes}
    (named : header.1 ≠ []) (valued : header.2 ≠ []) :
    (RequestFragments.headerCallbacks header).foldl call p =
      p.addLine header := by
  simp only [RequestFragments.headerCallbacks, List.foldl_append,
    List.foldl_map, call]
  rw [foldl_of_overwrites named fun p _ _ => onHeaderField_onHeaderField,
    foldl_of_appends valued fun p _ _ => onHeaderValue_onHeaderValue]
  rfl

theorem foldl_lines {headers : List (List Bytes × List Bytes)}
    (present : ∀ header ∈ headers, header.1 ≠ [] ∧ header.2 ≠ []) :
    (headers.flatMap RequestFragments.headerCallbacks).foldl call p =
      headers.foldl addLine p := by
  induction headers generalizing p with
  | nil => rfl
  | cons header headers ih =>
      have now := present header List.mem_cons_self
      rw [List.flatMap_cons, List.foldl_append,
        foldl_headerCallbacks now.1 now.2, List.foldl_cons,
        ih fun other member => present other (List.mem_cons_of_mem _ member)]

theorem foldl_body {body : List (List Bytes)}
    (present : ∀ element ∈ body, element ≠ []) :
    (body.flatten.map .onBody).foldl call p =
      (body.map List.flatten).foldl onBody p := by
  rw [List.foldl_map]
  induction body generalizing p with
  | nil => rfl
  | cons element body ih =>
      rw [List.flatten_cons, List.foldl_append, List.map_cons, List.foldl_cons]
      simp only [call] at ih ⊢
      rw [foldl_of_appends (present element List.mem_cons_self)
          fun p _ _ => onBody_onBody,
        ih fun other member => present other (List.mem_cons_of_mem _ member)]

/-- A header line touches nothing but the header context. -/
theorem foldl_addLine_context (headers : List (List Bytes × List Bytes)) :
    (headers.foldl addLine p).context = p.context := by
  induction headers generalizing p with
  | nil => rfl
  | cons header headers ih => exact ih (p := p.addLine header)

theorem foldl_addLine_type (headers : List (List Bytes × List Bytes)) :
    (headers.foldl addLine p).type = p.type := by
  induction headers generalizing p with
  | nil => rfl
  | cons header headers ih => exact ih (p := p.addLine header)

theorem foldl_addLine_headers (headers : List (List Bytes × List Bytes)) :
    (headers.foldl addLine p).headerCtx.headers =
      gather [] (fun header => header.1.getLastD [])
        (fun header => header.2.flatten) headers p.headerCtx.headers := by
  induction headers generalizing p with
  | nil => rfl
  | cons header headers ih =>
      rw [List.foldl_cons, ih, addLine_eq]
      rfl

theorem onHeadersComplete_type :
    p.onHeadersComplete.type = p.type := by
  unfold onHeadersComplete
  split <;> rfl

theorem onHeadersComplete_request (request : p.type = .ReqType) :
    p.onHeadersComplete.context.request =
      { p.context.request with headers := p.headerCtx.headers } := by
  rw [onHeadersComplete, if_pos request]
  rfl

theorem foldl_onBody (request : p.type = .ReqType) (elements : List Bytes) :
    elements.foldl onBody p = p.setRequest { p.context.request with
      body := elements.foldl (fun body data => addBody body
        (p.context.request.getHeader (ascii "Content-Type")) data)
        p.context.request.body } := by
  induction elements generalizing p with
  | nil => rfl
  | cons element elements ih =>
      rw [List.foldl_cons, onBody_request request, ih]
      · rfl
      · exact request

/-- The query parameters of a request are all that the query changes, and all
of the request that matters for them. -/
theorem parseQueryParam_eq (request : HttpRequest) (part : Bytes) :
    parseQueryParam request part =
      { request with
        queryParams := (parseQueryParam
          { queryParams := request.queryParams } part).queryParams } := by
  unfold parseQueryParam
  by_cases empty : part = []
  · rw [if_pos empty, if_pos empty]
  · rw [if_neg empty, if_neg empty]
    cases part.idxOf? 61 with
    | none =>
        dsimp only
        split <;> rfl
    | some equal =>
        dsimp only
        split <;> rfl

theorem parseQueryParams_eq (query : Bytes) (request : HttpRequest) :
    parseQueryParams query request =
      { request with
        queryParams := (parseQueryParams query
          { queryParams := request.queryParams }).queryParams } := by
  unfold parseQueryParams
  induction query.splitOn 38 generalizing request with
  | nil => rfl
  | cons part parts ih =>
      rw [List.foldl_cons, List.foldl_cons, ih, parseQueryParam_eq request,
        parseQueryParam_eq { queryParams := request.queryParams }]

theorem parseUrl_eq (url : Bytes) (request : HttpRequest) :
    parseUrl url request =
      { request with
        path := (parseUrl url { queryParams := request.queryParams }).path
        queryParams :=
          (parseUrl url { queryParams := request.queryParams }).queryParams } := by
  unfold parseUrl
  cases url.idxOf? 63 with
  | none => rfl
  | some queryPos =>
      dsimp only
      rw [parseQueryParams_eq, parseQueryParams_eq _
        { path := url.take queryPos, queryParams := request.queryParams }]

theorem requestLine_eq (request : p.type = .ReqType)
    (fresh : p.context.request = {}) (noHeaders : p.headerCtx = {})
    (method url version : Bytes) :
    ((p.onMethod method).onUrl url).onUrlComplete.onVersion version =
      { p with
        context := { p.context with
          request := {
            method := Method.FromString method
            path := (parseUrl url {}).path
            queryParams := (parseUrl url {}).queryParams
            version := Version.FromString (ascii "HTTP/" ++ version) } }
        headerCtx := { url := url } } := by
  simp [onVersion, request, onUrlComplete, onUrl, onMethod, setRequest, fresh,
    noHeaders]
  rw [parseUrl_eq]
  simp

end LLhttpParser

namespace RequestFragments

variable {σ : Type*} {f : RequestFragments} {request : CompleteRequest}
  {cuts : List Nat}

/-- No element is without a fragment. -/
structure Present (f : RequestFragments) : Prop where
  method : f.method ≠ []
  url : f.url ≠ []
  version : f.version ≠ []
  headers : ∀ header ∈ f.headers, header.1 ≠ [] ∧ header.2 ≠ []
  body : ∀ element ∈ f.body, element ≠ []
  trailers : ∀ header ∈ f.trailers, header.1 ≠ [] ∧ header.2 ≠ []

theorem forall_of_forall₂ {α β : Type*} {R : α → β → Prop} {P : β → Prop}
    (each : ∀ a b, R a b → P b) {as : List α} {bs : List β}
    (related : List.Forall₂ R as bs) : ∀ b ∈ bs, P b := by
  induction related with
  | nil => exact fun b member => absurd member List.not_mem_nil
  | cons first _ ih => exact List.forall_mem_cons.mpr ⟨each _ _ first, ih⟩

theorem CutFrom.present (cutFrom : f.CutFrom request cuts) : f.Present where
  method := cutFrom.method.cut.ne_nil
  url := cutFrom.url.cut.ne_nil
  version := cutFrom.version.cut.ne_nil
  headers := forall_of_forall₂
    (fun _ _ both => ⟨both.1.cut.ne_nil, both.2.cut.ne_nil⟩) cutFrom.headers
  body := forall_of_forall₂ (fun _ _ cut => cut.cut.ne_nil) cutFrom.body
  trailers := forall_of_forall₂
    (fun _ _ both => ⟨both.1.cut.ne_nil, both.2.cut.ne_nil⟩) cutFrom.trailers

/-- The headers as the callbacks gather them: the last fragment names a header
line. -/
def headerMap (headers : List (List Bytes × List Bytes)) : StringMap :=
  gather [] (fun header => header.1.getLastD []) (fun header => header.2.flatten)
    headers ∅

def bodyOf (headers : StringMap) (elements : List Bytes) : Body :=
  elements.foldl (fun body data => LLhttpParser.addBody body
    ((headers.lookup (ascii "Content-Type")).getD []) data) {}

/-- The request the callbacks put together. -/
def assembled (f : RequestFragments) : HttpRequest :=
  { method := Method.FromString (f.method.getLastD [])
    path := (LLhttpParser.parseUrl f.url.flatten {}).path
    queryParams := (LLhttpParser.parseUrl f.url.flatten {}).queryParams
    version := Version.FromString (ascii "HTTP/" ++ f.version.getLastD [])
    headers := headerMap f.headers
    body := bodyOf (headerMap f.headers) (f.body.map List.flatten) }

open LLhttpParser in
/-- The callbacks, element by element. -/
theorem Present.foldl_callbacks (present : f.Present) (p : LLhttpParser σ) :
    f.callbacks.foldl call p =
      f.trailers.foldl addLine ((f.body.map List.flatten).foldl onBody
        (f.headers.foldl addLine
          (((p.onMethod (f.method.getLastD [])).onUrl
            f.url.flatten).onUrlComplete.onVersion
              (f.version.getLastD []))).onHeadersComplete) := by
  simp only [callbacks, List.foldl_append, List.foldl_cons, List.foldl_nil]
  rw [foldl_lines present.trailers, foldl_body present.body,
    foldl_lines present.headers]
  simp only [List.foldl_map, call]
  rw [foldl_of_overwrites present.method fun p _ _ => onMethod_onMethod,
    foldl_of_appends present.url fun p _ _ => onUrl_onUrl,
    foldl_of_overwrites present.version fun p _ _ => onVersion_onVersion]

open LLhttpParser in
/-- What a fresh parser has put together when the callbacks have run. -/
theorem Present.request_eq (present : f.Present) {p : LLhttpParser σ}
    (request : p.type = .ReqType) (fresh : p.context.request = {})
    (noHeaders : p.headerCtx = {}) :
    (f.callbacks.foldl call p).context.request = f.assembled := by
  rw [present.foldl_callbacks, foldl_addLine_context,
    requestLine_eq request fresh noHeaders]
  generalize lineHere : LLhttpParser.mk _ _ _ _ _ = line
  have lineType : line.type = .ReqType := by
    rw [← lineHere]
    exact request
  have linesType : (f.headers.foldl addLine line).type = .ReqType :=
    (foldl_addLine_type f.headers).trans lineType
  have headersType : (f.headers.foldl addLine line).onHeadersComplete.type =
      .ReqType := onHeadersComplete_type.trans linesType
  have headersRequest := onHeadersComplete_request linesType
  rw [foldl_addLine_context, foldl_addLine_headers] at headersRequest
  rw [foldl_onBody headersType, setRequest, headersRequest, ← lineHere]
  rfl

/-- The last fragments of the method and of the version read like the whole
ones; a header name whose last fragment is not the whole name has no value, and
the last fragments are the same names as the whole ones. -/
structure Intact (f : RequestFragments) : Prop where
  method : Method.FromString (f.method.getLastD []) =
    Method.FromString f.method.flatten
  version : Version.FromString (ascii "HTTP/" ++ f.version.getLastD []) =
    Version.FromString (ascii "HTTP/" ++ f.version.flatten)
  values : ∀ header ∈ f.headers,
    header.1.getLastD [] = header.1.flatten ∨ header.2.flatten = []
  names : ∀ name, name ≠ [] →
    ((∃ header ∈ f.headers, header.1.getLastD [] = name) ↔
      ∃ header ∈ f.headers, header.1.flatten = name)

/-- In one piece the header names are the whole ones. -/
theorem headerMap_joined (f : RequestFragments) :
    headerMap f.joined.headers =
      gather [] (fun header => header.1.flatten) (fun header => header.2.flatten)
        f.headers ∅ := by
  simp only [headerMap, joined, gather, List.foldl_map, List.flatten_singleton]
  rfl

theorem headerMap_eq_iff (f : RequestFragments) :
    headerMap f.headers = headerMap f.joined.headers ↔
      (∀ header ∈ f.headers,
        header.1.getLastD [] = header.1.flatten ∨ header.2.flatten = []) ∧
      ∀ name, name ≠ [] →
        ((∃ header ∈ f.headers, header.1.getLastD [] = name) ↔
          ∃ header ∈ f.headers, header.1.flatten = name) := by
  rw [headerMap_joined]
  exact gather_eq_iff List.length rfl
    fun header _ => getLastD_eq_flatten_or_shorter

/-- The fragments make the same request as the elements in one piece. -/
theorem assembled_eq_iff (f : RequestFragments) :
    f.assembled = f.joined.assembled ↔ f.Intact := by
  have url : f.joined.url.flatten = f.url.flatten := by
    simp [joined]
  have body : f.joined.body.map List.flatten = f.body.map List.flatten := by
    simp [joined]
  have method : f.joined.method.getLastD [] = f.method.flatten := rfl
  have version : f.joined.version.getLastD [] = f.version.flatten := rfl
  constructor
  · intro same
    simp only [assembled, HttpRequest.mk.injEq, method, version] at same
    obtain ⟨sameMethod, _, _, _, sameVersion, sameHeaders, _⟩ := same
    obtain ⟨values, names⟩ := (headerMap_eq_iff f).mp sameHeaders
    exact ⟨sameMethod, sameVersion, values, names⟩
  · intro intact
    have headers := (headerMap_eq_iff f).mpr ⟨intact.values, intact.names⟩
    rw [assembled, assembled, url, body, method, version, intact.method,
      intact.version, headers]

end RequestFragments

end KitMuduo
