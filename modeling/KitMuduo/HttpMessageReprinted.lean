import KitMuduo.HttpResponseFraming
import KitMuduo.WriteBack

/-!
# Messages that are serialised more than once

`toString` stores the headers that follow from the other fields in the header
map, where they stay.  A later text is as if the earlier calls of `toString` had
not been made unless one of them stored a header that the message would not have
any more.
-/

namespace KitMuduo

open DecimalText WriteBack

theorem lookup_insert_eq (map : StringMap) (name val other : Bytes) :
    (map.insert name val).lookup other =
      if other = name then some val else map.lookup other := by
  by_cases same : other = name
  · rw [same, if_pos rfl, Finmap.lookup_insert]
  · rw [if_neg same, Finmap.lookup_insert_of_ne _ same]

/-- A walk in the order of the entries. -/
theorem Traversal.nonempty (map : StringMap) : Nonempty (Traversal map) := by
  induction map using Finmap.induction_on with
  | H list =>
      refine ⟨list.entries.map fun entry => (entry.1, entry.2), ?_, ?_⟩
      · rw [List.map_map]
        exact list.keys_nodup
      · intro name val
        rw [Finmap.lookup_toFinmap, ← Option.mem_def, AList.mem_lookup_iff]
        constructor
        · intro member
          obtain ⟨⟨_, _⟩, inList, same⟩ := List.mem_map.mp member
          cases same
          exact inList
        · exact fun inList => List.mem_map.mpr ⟨⟨name, val⟩, inList, rfl⟩

/-- The lines a walk prints. -/
def headerLines {map : StringMap} (walk : Traversal map) : Set Bytes :=
  {line | ∃ header ∈ walk.elements, line = headerLine header}

/-- A line whose name and value have no colon comes from one header only. -/
theorem headerLine_mem_iff {map : StringMap} (walk : Traversal map)
    {name val : Bytes} (plainName : 58 ∉ name) (plainVal : 58 ∉ val) :
    headerLine (name, val) ∈ headerLines walk ↔ map.lookup name = some val := by
  constructor
  · rintro ⟨⟨other, otherVal⟩, member, same⟩
    have behind : (58 : UInt8) ∉ 32 :: (val ++ kCRLF) := by
      have noCRLF : (58 : UInt8) ∉ kCRLF := by decide
      simp [plainVal, noCRLF]
    have split : name ++ 58 :: (32 :: (val ++ kCRLF)) =
        other ++ 58 :: (32 :: (otherVal ++ kCRLF)) := by
      simpa [headerLine, kColon, kSpace, ascii] using same
    obtain ⟨rfl, _, rest⟩ :=
      (List.append_cons_inj_of_notMem plainName behind).mp split
    have vals : val = otherVal := by simpa using rest
    rw [vals]
    exact (walk.mem_iff _ _).mp member
  · intro stored
    exact ⟨(name, val), (walk.mem_iff _ _).mpr stored, rfl⟩

/-- The lines are those of the silent run exactly if the headers left behind do
no harm. -/
theorem headerLines_eq_iff {ι φ : Type*} {c : Calls ι φ Bytes Bytes}
    {r : Record φ Bytes Bytes} {calls : List ι} {map other : StringMap}
    (printed : ∀ name, map.lookup name = c.printed (c.run r calls) name)
    (printedOther : ∀ name,
      other.lookup name = c.printed (c.run r (c.silent calls)) name)
    (plain : ∀ fields name val, c.own fields name = some val →
      58 ∉ name ∧ 58 ∉ val) :
    (∀ (walk : Traversal map) (walkOther : Traversal other),
        headerLines walk = headerLines walkOther) ↔
      ∀ name val, c.Left r calls name val →
        c.own (c.run r calls).fields name = none →
          (c.run r (c.silent calls)).entries name = some val := by
  constructor
  · intro same name val left unstored
    obtain ⟨walk⟩ := Traversal.nonempty map
    obtain ⟨walkOther⟩ := Traversal.nonempty other
    have ⟨_, _, _, _, _, stored, _⟩ := left
    obtain ⟨plainName, plainVal⟩ := plain _ name val stored
    have here : map.lookup name = some val := by
      rw [printed, Calls.printed, unstored, Option.none_or,
        c.entries_of_left left]
    have line := (headerLine_mem_iff walk plainName plainVal).mpr here
    rw [same walk walkOther, headerLine_mem_iff walkOther plainName plainVal,
      printedOther, Calls.printed, c.fields_silent, unstored,
      Option.none_or] at line
    exact line
  · intro harmless walk walkOther
    have maps : map = other := by
      apply Finmap.ext_lookup
      intro name
      rw [printed, printedOther]
      exact (c.printed_eq_iff r calls).mpr harmless name
    subst maps
    ext line
    simp only [headerLines, Set.mem_ofPred_eq, Prod.exists, walk.mem_iff,
      walkOther.mem_iff]

theorem colon_not_mem_digits (number : Nat) : 58 ∉ digits number := by
  intro member
  have digit := isDigit_of_mem_digits member
  revert digit
  decide

/-! ## What both classes of messages share -/

/-- What a call does to a header map. -/
inductive HeaderCall
  | addHeader (head val : Bytes)
  | addHeaderLine (head val : Bytes)
  | setHeaders (headers : StringMap)
  | nothing

namespace HeaderCall

def apply (headers : StringMap) : HeaderCall → StringMap
  | addHeader head val => headers.insert head val
  | addHeaderLine head val =>
      match trimmedHeader head val with
      | none => headers
      | some (head, val) => headers.insert head val
  | setHeaders headers => headers
  | nothing => headers

/-- What the call writes under a header name. -/
def written : HeaderCall → Bytes → Option (Option Bytes)
  | addHeader head val, name => if name = head then some (some val) else none
  | addHeaderLine head val, name =>
      (trimmedHeader head val).bind fun header =>
        if name = header.1 then some (some header.2) else none
  | setHeaders headers, name => some (headers.lookup name)
  | nothing, _ => none

theorem lookup_insert (headers : StringMap) (head val name : Bytes) :
    (headers.insert head val).lookup name =
      ((addHeader head val).written name).getD (headers.lookup name) := by
  rw [lookup_insert_eq, written]
  split <;> rfl

theorem lookup_apply (headers : StringMap) (call : HeaderCall) (name : Bytes) :
    (call.apply headers).lookup name =
      (call.written name).getD (headers.lookup name) := by
  cases call with
  | addHeader head val => exact lookup_insert headers head val name
  | addHeaderLine head val =>
      rw [apply, written]
      cases trimmedHeader head val with
      | none => rfl
      | some header => exact lookup_insert headers header.1 header.2 name
  | setHeaders headers => rfl
  | nothing => rfl

end HeaderCall

/-- A class of messages: the calls that put a message together, the parts of its
text, and the headers that its `toString` stores, which follow from everything
but the header map. -/
structure MessageClass (Call Message : Type) where
  fresh : Message
  apply : Message → Call → Message
  isToString : Call → Bool
  headerCall : Call → HeaderCall
  headers : Message → StringMap
  setHeaders : Message → StringMap → Message
  setOwnHeaders : Message → Message
  /-- What `toString` stores under a header name. -/
  ownHeader : Message → Bytes → Option Bytes
  startLine : Message → Bytes
  data : Message → Bytes
  headers_setHeaders : ∀ message map, headers (setHeaders message map) = map
  ownHeader_setHeaders : ∀ message map,
    ownHeader (setHeaders message map) = ownHeader message
  startLine_setHeaders : ∀ message map,
    startLine (setHeaders message map) = startLine message
  data_setHeaders : ∀ message map, data (setHeaders message map) = data message
  apply_toString : ∀ message call, isToString call = true →
    apply message call = setOwnHeaders message
  setOwnHeaders_setHeaders : ∀ message,
    setHeaders (setOwnHeaders message) (headers message) = message
  lookup_setOwnHeaders : ∀ message name,
    (headers (setOwnHeaders message)).lookup name =
      (ownHeader message name).or ((headers message).lookup name)
  headers_apply : ∀ message call, isToString call = false →
    headers (apply message call) = (headerCall call).apply (headers message)
  /-- The header map has no influence on the rest of a message. -/
  apply_setHeaders : ∀ message call map,
    setHeaders (apply (setHeaders message map) call) map =
      setHeaders (apply message call) map
  colon_not_mem : ∀ message name val, ownHeader message name = some val →
    58 ∉ name ∧ 58 ∉ val

namespace MessageClass

variable {Call Message : Type} (k : MessageClass Call Message)

def built (made : List Call) : Message :=
  made.foldl k.apply k.fresh

/-- The message but for its header map. -/
def fields (message : Message) : Message :=
  k.setHeaders message ∅

/-- A message as a record whose prints are the calls of `toString`. -/
def calls : Calls Call Message Bytes Bytes where
  isPrint := k.isToString
  change message call := k.setHeaders (k.apply message call) (k.headers message)
  written call := (k.headerCall call).written
  own := k.ownHeader
  change_print message call print := by
    rw [k.apply_toString message call print, k.setOwnHeaders_setHeaders]

def record (message : Message) : Record Message Bytes Bytes where
  fields := k.fields message
  entries name := (k.headers message).lookup name

theorem record_apply (message : Message) (call : Call) :
    k.record (k.apply message call) = k.calls.apply (k.record message) call := by
  have fields : k.fields (k.apply message call) =
      k.calls.change (k.fields message) call := by
    change _ = k.setHeaders (k.apply (k.setHeaders message ∅) call)
      (k.headers (k.setHeaders message ∅))
    rw [k.headers_setHeaders, k.apply_setHeaders]
    rfl
  have entries : (fun name => (k.headers (k.apply message call)).lookup name) =
      (k.calls.apply (k.record message) call).entries := by
    funext name
    cases print : k.isToString call with
    | true =>
        rw [k.calls.entries_apply_of_print print,
          k.apply_toString message call print, k.lookup_setOwnHeaders,
          ← k.ownHeader_setHeaders message ∅]
        rfl
    | false =>
        rw [k.calls.entries_apply_of_not_print (by simp [calls, print]),
          k.headers_apply message call print, HeaderCall.lookup_apply]
        rfl
  rw [record, fields, entries]
  rfl

theorem record_built (made : List Call) :
    k.record (k.built made) = k.calls.run (k.record k.fresh) made := by
  induction made using List.reverseRecOn with
  | nil => rfl
  | append_singleton made call ih =>
      rw [k.calls.run_concat, ← ih, ← k.record_apply, built, List.foldl_append]
      rfl

/-- The headers `toString` prints. -/
theorem lookup_printed (made : List Call) (name : Bytes) :
    (k.headers (k.setOwnHeaders (k.built made))).lookup name =
      k.calls.printed (k.calls.run (k.record k.fresh) made) name := by
  rw [k.lookup_setOwnHeaders, ← k.record_built,
    ← k.ownHeader_setHeaders (k.built made) ∅]
  rfl

theorem fields_built_silent (made : List Call) :
    k.fields (k.built (k.calls.silent made)) = k.fields (k.built made) := by
  have same := k.calls.fields_silent (k.record k.fresh) made
  rw [← k.record_built, ← k.record_built] at same
  exact same

/-- The start line, the body and the header lines of a text are the same if the
calls of `toString` before it are left out. -/
def SameText (made : List Call) : Prop :=
  k.startLine (k.built made) = k.startLine (k.built (k.calls.silent made)) ∧
    k.data (k.built made) = k.data (k.built (k.calls.silent made)) ∧
    ∀ (walk : Traversal (k.headers (k.setOwnHeaders (k.built made))))
      (walkSilent : Traversal
        (k.headers (k.setOwnHeaders (k.built (k.calls.silent made))))),
      headerLines walk = headerLines walkSilent

/-- A header that a call of `toString` has stored and no later call has touched
would be stored again, or would be there with the same value anyway. -/
def NothingStale (made : List Call) : Prop :=
  ∀ name val, k.calls.Left (k.record k.fresh) made name val →
    k.ownHeader (k.built made) name = none →
      (k.headers (k.built (k.calls.silent made))).lookup name = some val

theorem sameText_iff (made : List Call) :
    k.SameText made ↔ k.NothingStale made := by
  have same := k.fields_built_silent made
  have line : k.startLine (k.built made) =
      k.startLine (k.built (k.calls.silent made)) := by
    rw [← k.startLine_setHeaders (k.built made) ∅,
      ← k.startLine_setHeaders (k.built (k.calls.silent made)) ∅]
    exact congrArg k.startLine same.symm
  have data : k.data (k.built made) =
      k.data (k.built (k.calls.silent made)) := by
    rw [← k.data_setHeaders (k.built made) ∅,
      ← k.data_setHeaders (k.built (k.calls.silent made)) ∅]
    exact congrArg k.data same.symm
  have lines := headerLines_eq_iff (k.lookup_printed made)
    (k.lookup_printed (k.calls.silent made)) k.colon_not_mem
  have own : k.calls.own (k.fields (k.built made)) =
      k.ownHeader (k.built made) :=
    k.ownHeader_setHeaders _ _
  rw [← k.record_built, ← k.record_built] at lines
  simp only [record, own] at lines
  exact ⟨fun same => lines.mp same.2.2,
    fun nothing => ⟨line, data, lines.mpr nothing⟩⟩

end MessageClass

/-! ## Responses and requests -/

namespace HttpResponse

/-- What a call does to the headers. -/
def Call.headerCall : Call → HeaderCall
  | addHeader head val => .addHeader head val
  | addHeaderLine head val => .addHeaderLine head val
  | setHeaders headers => .setHeaders headers
  | _ => .nothing

/-- What `toString` stores under a header name. -/
def ownHeader (response : HttpResponse) (name : Bytes) : Option Bytes :=
  if name = ascii "Content-Length" ∧ response.body.data.length ≠ 0 then
    some (digits response.body.data.length)
  else if name = ascii "Content-Type" ∧
      response.body.contentType ≠ .kUnknowType then
    some (contentTypeStr response.body.contentType)
  else if name = ascii "Keep-Alive" ∧
      response.version = .kHttp11 ∧ response.connectionClosed = false then
    some (ascii "timeout=5, max=100")
  else if name = ascii "Connection" then
    some response.connection
  else
    none

theorem lookup_setOwnHeaders (response : HttpResponse) (name : Bytes) :
    response.setOwnHeaders.headers.lookup name =
      (response.ownHeader name).or (response.headers.lookup name) := by
  simp only [ownHeader, setOwnHeaders, connection]
  split_ifs <;> simp_all [lookup_insert_eq]

theorem colon_not_mem_ownHeader (response : HttpResponse) (name val : Bytes)
    (stored : response.ownHeader name = some val) : 58 ∉ name ∧ 58 ∉ val := by
  unfold ownHeader at stored
  split_ifs at stored with length type keepAlive connection
  · cases stored
    exact ⟨by rw [length.1]; decide, colon_not_mem_digits _⟩
  · cases stored
    refine ⟨by rw [type.1]; decide, ?_⟩
    cases response.body.contentType <;> decide
  · cases stored
    exact ⟨by rw [keepAlive.1]; decide, by decide⟩
  · cases stored
    refine ⟨by rw [connection]; decide, ?_⟩
    unfold HttpResponse.connection
    split <;> decide

theorem headers_apply (response : HttpResponse) (call : Call)
    (noPrint : (call matches .toString) = false) :
    (response.apply call).headers = call.headerCall.apply response.headers := by
  cases call with
  | addHeaderLine head val =>
      rw [apply, addHeaderLine, Call.headerCall, HeaderCall.apply]
      cases trimmedHeader head val <;> rfl
  | toString => cases noPrint
  | _ => rfl

theorem apply_setHeaders (response : HttpResponse) (call : Call)
    (map : StringMap) :
    { ({ response with headers := map } : HttpResponse).apply call with
        headers := map } =
      { response.apply call with headers := map } := by
  cases call with
  | addHeaderLine head val =>
      rw [apply, apply, addHeaderLine, addHeaderLine]
      cases trimmedHeader head val <;> rfl
  | _ => rfl

def messageClass : MessageClass Call HttpResponse where
  fresh := {}
  apply := apply
  isToString call := call matches .toString
  headerCall := Call.headerCall
  headers := headers
  setHeaders response map := { response with headers := map }
  setOwnHeaders := setOwnHeaders
  ownHeader := ownHeader
  startLine := statusLine
  data response := response.body.data
  headers_setHeaders _ _ := rfl
  ownHeader_setHeaders _ _ := rfl
  startLine_setHeaders _ _ := rfl
  data_setHeaders _ _ := rfl
  apply_toString _ call print := by
    cases call <;> first | rfl | cases print
  setOwnHeaders_setHeaders _ := rfl
  lookup_setOwnHeaders := lookup_setOwnHeaders
  headers_apply := headers_apply
  apply_setHeaders := apply_setHeaders
  colon_not_mem := colon_not_mem_ownHeader

def SameText (made : List Call) : Prop :=
  messageClass.SameText made

def NothingStale (made : List Call) : Prop :=
  messageClass.NothingStale made

end HttpResponse

namespace Method

/-- `Method(int32_t)`: outside the enumeration it prints as `kInvaild`. -/
def ofInt (method : Int) : Method :=
  if method = 1 then kGet
  else if method = 2 then kPost
  else if method = 3 then kHead
  else if method = 4 then kPut
  else if method = 5 then kDelete
  else kInvaild

end Method

namespace HttpRequest

/-- The calls of whoever puts a request together. -/
inductive Call
  | setMethod (method : Int)
  | setPath (path : Bytes)
  | addQureyParam (key val : Bytes)
  | addRouteParam (key val : Bytes)
  | setVersion (version : Int)
  | addHeader (head val : Bytes)
  | addHeaderLine (head val : Bytes)
  | setHeaders (headers : StringMap)
  | setContentType (contentType : Int)
  | appendData (data : Bytes)
  | resetBody
  | setBody (body : Body)
  | toString

def apply (request : HttpRequest) : Call → HttpRequest
  | .setMethod method => { request with method := Method.ofInt method }
  | .setPath path => { request with path := path }
  | .addQureyParam key val => request.addQureyParam key val
  | .addRouteParam key val => request.addRouteParam key val
  | .setVersion version => { request with version := Version.ofInt version }
  | .addHeader head val => request.addHeader head val
  | .addHeaderLine head val => (request.addHeaderLine head val).2
  | .setHeaders headers => { request with headers := headers }
  | .setContentType contentType =>
      { request with
        body := request.body.setContentType (ContentType.ofInt contentType) }
  | .appendData data => { request with body := request.body.appendData data }
  | .resetBody => { request with body := request.body.reset }
  | .setBody body => { request with body := body }
  | .toString => request.setOwnHeaders

def built (made : List Call) : HttpRequest :=
  made.foldl apply {}

def requestLine (request : HttpRequest) : Bytes :=
  request.method.toString ++ kSpace ++ request.path ++ kSpace ++
    request.version.toString ++ kCRLF

/-- As for a response. -/
def Call.headerCall : Call → HeaderCall
  | addHeader head val => .addHeader head val
  | addHeaderLine head val => .addHeaderLine head val
  | setHeaders headers => .setHeaders headers
  | _ => .nothing

def ownHeader (request : HttpRequest) (name : Bytes) : Option Bytes :=
  if name = ascii "Content-Type" ∧
      request.body.contentType ≠ .kUnknowType then
    some request.body.contentType.toString
  else if name = ascii "Content-Length" ∧ request.body.data.length ≠ 0 then
    some (digits request.body.data.length)
  else
    none

theorem lookup_setOwnHeaders (request : HttpRequest) (name : Bytes) :
    request.setOwnHeaders.headers.lookup name =
      (request.ownHeader name).or (request.headers.lookup name) := by
  simp only [ownHeader, setOwnHeaders]
  split_ifs <;> simp_all [lookup_insert_eq]

theorem colon_not_mem_ownHeader (request : HttpRequest) (name val : Bytes)
    (stored : request.ownHeader name = some val) : 58 ∉ name ∧ 58 ∉ val := by
  unfold ownHeader at stored
  split_ifs at stored with type length
  · cases stored
    refine ⟨by rw [type.1]; decide, ?_⟩
    cases request.body.contentType <;> decide
  · cases stored
    exact ⟨by rw [length.1]; decide, colon_not_mem_digits _⟩

theorem headers_apply (request : HttpRequest) (call : Call)
    (noPrint : (call matches .toString) = false) :
    (request.apply call).headers = call.headerCall.apply request.headers := by
  cases call with
  | addHeaderLine head val =>
      rw [apply, addHeaderLine, Call.headerCall, HeaderCall.apply]
      cases trimmedHeader head val <;> rfl
  | toString => cases noPrint
  | _ => rfl

theorem apply_setHeaders (request : HttpRequest) (call : Call)
    (map : StringMap) :
    { ({ request with headers := map } : HttpRequest).apply call with
        headers := map } =
      { request.apply call with headers := map } := by
  cases call with
  | addHeaderLine head val =>
      rw [apply, apply, addHeaderLine, addHeaderLine]
      cases trimmedHeader head val <;> rfl
  | _ => rfl

def messageClass : MessageClass Call HttpRequest where
  fresh := {}
  apply := apply
  isToString call := call matches .toString
  headerCall := Call.headerCall
  headers := headers
  setHeaders request map := { request with headers := map }
  setOwnHeaders := setOwnHeaders
  ownHeader := ownHeader
  startLine := requestLine
  data request := request.body.data
  headers_setHeaders _ _ := rfl
  ownHeader_setHeaders _ _ := rfl
  startLine_setHeaders _ _ := rfl
  data_setHeaders _ _ := rfl
  apply_toString _ call print := by
    cases call <;> first | rfl | cases print
  setOwnHeaders_setHeaders _ := rfl
  lookup_setOwnHeaders := lookup_setOwnHeaders
  headers_apply := headers_apply
  apply_setHeaders := apply_setHeaders
  colon_not_mem := colon_not_mem_ownHeader

def SameText (made : List Call) : Prop :=
  messageClass.SameText made

def NothingStale (made : List Call) : Prop :=
  messageClass.NothingStale made

end HttpRequest

/-- Earlier calls of `toString` make no difference exactly if they leave nothing
stale behind. -/
theorem reprinted_iff (requestCalls : List HttpRequest.Call)
    (responseCalls : List HttpResponse.Call) :
    (HttpRequest.SameText requestCalls ↔
        HttpRequest.NothingStale requestCalls) ∧
      (HttpResponse.SameText responseCalls ↔
        HttpResponse.NothingStale responseCalls) :=
  ⟨HttpRequest.messageClass.sameText_iff requestCalls,
    HttpResponse.messageClass.sameText_iff responseCalls⟩

/-- The calls of a handler that answers with a short text. -/
def answerCalls : List HttpResponse.Call :=
  [.setVersion 2, .setStateCode 200, .appendData (ascii "hi")]

/-- When the body is reset between two texts, the second still announces the
length of the first body. -/
theorem not_sameText_reset :
    ¬ ∀ (requestCalls : List HttpRequest.Call)
      (responseCalls : List HttpResponse.Call),
      HttpRequest.SameText requestCalls ∧
        HttpResponse.SameText responseCalls := by
  intro always
  have nothing := (HttpResponse.messageClass.sameText_iff
    (answerCalls ++ [.toString] ++ [.resetBody])).mp (always [] _).2
  let calls := HttpResponse.messageClass.calls
  have stored : calls.Left (HttpResponse.messageClass.record {})
      (answerCalls ++ [.toString]) (ascii "Content-Length") (digits 2) :=
    calls.left_concat.mpr (.inl ⟨rfl, by decide⟩)
  have left := calls.left_concat.mpr
    (.inr ⟨(rfl : calls.touches _ .resetBody _ = false), stored⟩)
  have kept := nothing _ _ left (by decide)
  revert kept
  decide

end KitMuduo
