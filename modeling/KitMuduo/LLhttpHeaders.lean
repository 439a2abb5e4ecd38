import KitMuduo.HttpServer
import KitMuduo.LLhttpWholeRequest

/-!
# Header names and repeated headers

The callbacks file the values under the names as they are spelled, and append to
what a name has already.  So two spellings of a name are two headers, and the
values of two fields with one name run together.
-/

namespace KitMuduo

open GatheredValues

namespace RequestElements

/-- The values of the fields with exactly this name, in their order. -/
def valuesOf (elements : RequestElements) (name : Bytes) : List Bytes :=
  (elements.headers.filter fun header => header.1 = name).map Prod.snd

/-- The names differ at most in the case of their letters. -/
def SameName (name other : Bytes) : Prop :=
  name.map ContentType.tolower = other.map ContentType.tolower

/-- The requests differ at most in the case of letters of header names. -/
structure Recased (elements other : RequestElements) : Prop where
  method : elements.method = other.method
  url : elements.url = other.url
  version : elements.version = other.version
  headers : List.Forall₂
    (fun header changed => SameName header.1 changed.1 ∧ header.2 = changed.2)
    elements.headers other.headers
  body : elements.body = other.body
  trailers : List.Forall₂
    (fun header changed => SameName header.1 changed.1 ∧ header.2 = changed.2)
    elements.trailers other.trailers

/-- The same fields of both requests have exactly this name. -/
def SpelledAlike (elements other : RequestElements) (name : Bytes) : Prop :=
  List.Forall₂ (fun header changed => header.1 = name ↔ changed.1 = name)
    elements.headers other.headers

variable {elements other : RequestElements} {name : Bytes}

theorem headerMap_fragments :
    RequestFragments.headerMap elements.fragments.headers =
      gather [] Prod.fst Prod.snd elements.headers ∅ := by
  simp only [RequestFragments.headerMap, fragments, gather, List.foldl_map,
    List.flatten_singleton]
  rfl

theorem gathered_eq_valuesOf :
    gathered Prod.fst Prod.snd elements.headers name =
      (elements.valuesOf name).flatten := by
  unfold gathered valuesOf
  induction elements.headers with
  | nil => rfl
  | cons header headers ih =>
      rw [List.flatMap_cons, ih, List.filter_cons]
      by_cases here : header.1 = name <;> simp [here]

theorem valuesOf_eq_nil_iff :
    elements.valuesOf name = [] ↔
      ¬ ∃ header ∈ elements.headers, header.1 = name := by
  simp only [valuesOf, List.map_eq_nil_iff, List.filter_eq_nil_iff,
    decide_eq_true_eq, not_exists, not_and]

/-- The values run together under their name. -/
theorem lookup_assembled (named : name ≠ []) :
    elements.fragments.assembled.headers.lookup name =
      if elements.valuesOf name = [] then none
      else some (elements.valuesOf name).flatten := by
  have gathered : elements.fragments.assembled.headers =
      gather [] Prod.fst Prod.snd elements.headers ∅ := headerMap_fragments
  rw [gathered, lookup_gather_empty named, gathered_eq_valuesOf]
  by_cases occurs : ∃ header ∈ elements.headers, header.1 = name
  · rw [if_pos occurs, if_neg fun none => valuesOf_eq_nil_iff.mp none occurs]
  · rw [if_neg occurs, if_pos (valuesOf_eq_nil_iff.mpr occurs)]

theorem getHeader_assembled (name : Bytes) :
    elements.fragments.assembled.getHeader name =
      if name = [] then [] else (elements.valuesOf name).flatten := by
  by_cases named : name = []
  · subst named
    have gathered : elements.fragments.assembled.headers =
        gather [] Prod.fst Prod.snd elements.headers ∅ := headerMap_fragments
    rw [HttpRequest.getHeader, gathered, lookup_gather]
    simp
  · rw [HttpRequest.getHeader, lookup_assembled named, if_neg named]
    split <;> simp_all

theorem valuesOf_eq_of_spelledAlike (recased : elements.Recased other)
    (alike : elements.SpelledAlike other name) :
    elements.valuesOf name = other.valuesOf name := by
  have headers := recased.headers
  unfold SpelledAlike at alike
  unfold valuesOf
  generalize elements.headers = before at headers alike ⊢
  generalize other.headers = after at headers alike ⊢
  induction headers with
  | nil => rfl
  | @cons header changed before after same _ ih =>
      obtain ⟨here, later⟩ := List.forall₂_cons.mp alike
      rw [List.filter_cons, List.filter_cons]
      simp only [decide_eq_true_eq, here]
      split
      · rw [List.map_cons, List.map_cons, ih later, same.2]
      · exact ih later

theorem getHeader_eq_of_spelledAlike (recased : elements.Recased other)
    (alike : elements.SpelledAlike other name) :
    elements.fragments.assembled.getHeader name =
      other.fragments.assembled.getHeader name := by
  rw [getHeader_assembled, getHeader_assembled,
    valuesOf_eq_of_spelledAlike recased alike]

/-- The close decision looks at one header and the version. -/
theorem closeRequested_eq_of_spelledAlike (recased : elements.Recased other)
    (alike : elements.SpelledAlike other (ascii "Connection")) :
    HttpServer.closeRequested elements.fragments.assembled =
      HttpServer.closeRequested other.fragments.assembled := by
  have version : elements.fragments.assembled.version =
      other.fragments.assembled.version := by
    simp only [RequestFragments.assembled, fragments, recased.version]
  unfold HttpServer.closeRequested
  rw [getHeader_eq_of_spelledAlike recased alike, version]

/-- The body and its content type depend on one header. -/
theorem body_eq_of_spelledAlike (recased : elements.Recased other)
    (alike : elements.SpelledAlike other (ascii "Content-Type")) :
    elements.fragments.assembled.body = other.fragments.assembled.body := by
  have value := getHeader_eq_of_spelledAlike recased alike
  simp only [HttpRequest.getHeader, RequestFragments.assembled] at value
  simp only [RequestFragments.assembled, RequestFragments.bodyOf, value]
  rw [fragments, fragments, recased.body]

end RequestElements

namespace LLhttpParser

open RequestElements

/-- What the server takes from the headers of a request. -/
structure SameHeaders (request other : HttpRequest) : Prop where
  closed : HttpServer.closeRequested request = HttpServer.closeRequested other
  contentType : request.body.contentType = other.body.contentType
  getHeader : ∀ name, request.getHeader name = other.getHeader name

variable {σ : Type*} {llhttp : LLhttp σ}
  {bytes rest changed restChanged : Bytes}
  {elements other : RequestElements} {buf bufChanged : Buffer}

/-- A header is the same in both requests if the fields spelled that way have
the same values, joined; the decision to close and the content type of the body
are the same if the same fields are spelled as they are looked for. -/
theorem headers_of_recased
    (delivers : llhttp.DeliversAtOnce bytes rest elements)
    (deliversChanged : llhttp.DeliversAtOnce changed restChanged other)
    (recased : elements.Recased other)
    (received : buf.readable = bytes ++ rest)
    (receivedChanged : bufChanged.readable = changed ++ restChanged) :
    (∀ name, name ≠ [] →
      ((requestOf llhttp buf).getHeader name =
          (requestOf llhttp bufChanged).getHeader name ↔
        (elements.valuesOf name).flatten = (other.valuesOf name).flatten)) ∧
      (∀ name, elements.SpelledAlike other name →
        (requestOf llhttp buf).getHeader name =
          (requestOf llhttp bufChanged).getHeader name) ∧
      (elements.SpelledAlike other (ascii "Connection") →
        HttpServer.closeRequested (requestOf llhttp buf) =
          HttpServer.closeRequested (requestOf llhttp bufChanged)) ∧
      (elements.SpelledAlike other (ascii "Content-Type") →
        (requestOf llhttp buf).body.contentType =
          (requestOf llhttp bufChanged).body.contentType) := by
  rw [requestOf_eq delivers received,
    requestOf_eq deliversChanged receivedChanged]
  refine ⟨?_, ?_, ?_, ?_⟩
  · intro name named
    rw [getHeader_assembled, getHeader_assembled, if_neg named, if_neg named]
  · exact fun name => getHeader_eq_of_spelledAlike recased
  · exact closeRequested_eq_of_spelledAlike recased
  · intro alike
    rw [body_eq_of_spelledAlike recased alike]

/-- A buffer after one read. -/
def received (bytes : Bytes) : Buffer :=
  (Buffer.new Buffer.kInitSize).append bytes

theorem received_readable (bytes : Bytes) :
    (received bytes).readable = bytes ++ [] := by
  rw [received, Buffer.append_readable (Buffer.new_valid _),
    Buffer.new_readable, List.nil_append, List.append_nil]

/-- A request to close the connection, with the given spellings of its header
names. -/
def closeElements (host connection : Bytes) : RequestElements where
  method := ascii "GET"
  url := ascii "/"
  version := ascii "1.1"
  headers := [(host, ascii "kit"), (connection, ascii "close")]
  body := []
  trailers := []

theorem closeElements_recased
    {host connection hostChanged connectionChanged : Bytes}
    (sameHost : SameName host hostChanged)
    (sameConnection : SameName connection connectionChanged) :
    (closeElements host connection).Recased
      (closeElements hostChanged connectionChanged) :=
  ⟨rfl, rfl, rfl, .cons ⟨sameHost, rfl⟩ (.cons ⟨sameConnection, rfl⟩ .nil), rfl,
    .nil⟩

theorem close_delivered : RequestScanner.llhttp.DeliversAtOnce
    (ascii "GET / HTTP/1.1\r\nHost: kit\r\nConnection: close\r\n\r\n") []
    (closeElements (ascii "Host") (ascii "Connection")) :=
  ⟨_, rfl⟩

theorem close_delivered_upperHost : RequestScanner.llhttp.DeliversAtOnce
    (ascii "GET / HTTP/1.1\r\nHOST: kit\r\nConnection: close\r\n\r\n") []
    (closeElements (ascii "HOST") (ascii "Connection")) :=
  ⟨_, rfl⟩

theorem close_delivered_lowerConnection : RequestScanner.llhttp.DeliversAtOnce
    (ascii "GET / HTTP/1.1\r\nHost: kit\r\nconnection: close\r\n\r\n") []
    (closeElements (ascii "Host") (ascii "connection")) :=
  ⟨_, rfl⟩

theorem sameName_host : SameName (ascii "Host") (ascii "HOST") := by
  simp [SameName, ascii, ContentType.tolower]

theorem sameName_connection :
    SameName (ascii "Connection") (ascii "connection") := by
  simp [SameName, ascii, ContentType.tolower]

/-- The spelling of another header does not matter for the decision to close. -/
theorem headers_of_recased_host :
    HttpServer.closeRequested (requestOf RequestScanner.llhttp (received
        (ascii ("GET / HTTP/1.1\r\nHost: kit\r\n" ++
          "Connection: close\r\n\r\n")))) =
      HttpServer.closeRequested (requestOf RequestScanner.llhttp (received
        (ascii ("GET / HTTP/1.1\r\nHOST: kit\r\n" ++
          "Connection: close\r\n\r\n")))) := by
  have agree := headers_of_recased close_delivered close_delivered_upperHost
    (closeElements_recased sameName_host rfl) (received_readable _)
    (received_readable _)
  exact agree.2.2.1 (.cons (by decide) (.cons Iff.rfl .nil))

/-- Of two spellings of `Connection` only one closes the connection. -/
theorem not_sameHeaders :
    ¬ ∀ (bytes rest changed restChanged : Bytes)
      (elements other : RequestElements) (buf bufChanged : Buffer),
      RequestScanner.llhttp.DeliversAtOnce bytes rest elements →
      RequestScanner.llhttp.DeliversAtOnce changed restChanged other →
      elements.Recased other →
      buf.readable = bytes ++ rest →
      bufChanged.readable = changed ++ restChanged →
      SameHeaders (requestOf RequestScanner.llhttp buf)
        (requestOf RequestScanner.llhttp bufChanged) := by
  intro always
  have closed := (always _ _ _ _ _ _ _ _ close_delivered
    close_delivered_lowerConnection
    (closeElements_recased rfl sameName_connection) (received_readable _)
    (received_readable _)).closed
  have first : HttpServer.closeRequested (closeElements (ascii "Host")
      (ascii "Connection")).fragments.assembled = true := by
    rw [HttpServer.closeRequested, getHeader_assembled]
    decide
  have second : HttpServer.closeRequested (closeElements (ascii "Host")
      (ascii "connection")).fragments.assembled = false := by
    rw [HttpServer.closeRequested, getHeader_assembled]
    decide
  rw [requestOf_eq close_delivered (received_readable _),
    requestOf_eq close_delivered_lowerConnection (received_readable _), first,
    second] at closed
  cases closed

/-- The values in a list as a header may have them, with commas between them and
a space behind a comma or not. -/
inductive JoinedByCommas : List Bytes → Bytes → Prop
  | one (value : Bytes) : JoinedByCommas [value] value
  | comma {values : List Bytes} {joined : Bytes} (value : Bytes) :
      JoinedByCommas values joined →
      JoinedByCommas (value :: values) (value ++ 44 :: joined)
  | commaSpace {values : List Bytes} {joined : Bytes} (value : Bytes) :
      JoinedByCommas values joined →
      JoinedByCommas (value :: values) (value ++ 44 :: 32 :: joined)

/-- There is a comma for every value but one. -/
theorem JoinedByCommas.length {values : List Bytes} {joined : Bytes}
    (list : JoinedByCommas values joined) :
    values.flatten.length + values.length ≤ joined.length + 1 := by
  induction list with
  | one value => simp
  | comma value _ ih =>
      simp only [List.flatten_cons, List.length_append, List.length_cons]
      omega
  | commaSpace value _ ih =>
      simp only [List.flatten_cons, List.length_append, List.length_cons]
      omega

theorem JoinedByCommas.ne_nil {values : List Bytes} {joined : Bytes}
    (list : JoinedByCommas values joined) : values ≠ [] := by
  cases list with
  | one value => exact List.cons_ne_nil _ _
  | comma value _ => exact List.cons_ne_nil _ _
  | commaSpace value _ => exact List.cons_ne_nil _ _

theorem joinedByCommas_flatten_iff {values : List Bytes} :
    JoinedByCommas values values.flatten ↔ values.length = 1 := by
  constructor
  · intro list
    have some := List.length_pos_iff.mpr list.ne_nil
    have commas := list.length
    omega
  · intro single
    obtain ⟨value, rfl⟩ := List.length_eq_one_iff.mp single
    rw [List.flatten_singleton]
    exact .one value

/-- The header map has the values of a name as a list exactly if there is only
one. -/
theorem storedJoined_iff (delivers : llhttp.DeliversAtOnce bytes rest elements)
    (received : buf.readable = bytes ++ rest) {name : Bytes}
    (named : name ≠ []) (occurs : 1 ≤ (elements.valuesOf name).length) :
    (∃ stored, (requestOf llhttp buf).headers.lookup name = some stored ∧
        JoinedByCommas (elements.valuesOf name) stored) ↔
      (elements.valuesOf name).length = 1 := by
  have filed : elements.valuesOf name ≠ [] := List.length_pos_iff.mp occurs
  rw [requestOf_eq delivers received, lookup_assembled named, if_neg filed]
  simp only [Option.some.injEq, exists_eq_left', joinedByCommas_flatten_iff]

/-- A request with a header that comes in two fields. -/
def acceptElements : RequestElements where
  method := ascii "GET"
  url := ascii "/"
  version := ascii "1.1"
  headers := [(ascii "Accept", ascii "a"), (ascii "Accept", ascii "b")]
  body := []
  trailers := []

theorem accept_delivered : RequestScanner.llhttp.DeliversAtOnce
    (ascii "GET / HTTP/1.1\r\nAccept: a\r\nAccept: b\r\n\r\n") []
    acceptElements :=
  ⟨_, rfl⟩

theorem storedJoined_host :
    ∃ stored, (requestOf RequestScanner.llhttp (received (ascii
          "GET / HTTP/1.1\r\nHost: kit\r\nConnection: close\r\n\r\n"))
        ).headers.lookup (ascii "Host") = some stored ∧
      JoinedByCommas [ascii "kit"] stored :=
  (storedJoined_iff close_delivered (received_readable _) (by decide)
    (by decide)).mpr (by decide)

/-- The value `ab` is not a list of `a` and `b`. -/
theorem not_storedJoined :
    ¬ ∀ (bytes rest : Bytes) (elements : RequestElements) (buf : Buffer)
      (name : Bytes), RequestScanner.llhttp.DeliversAtOnce bytes rest elements →
      buf.readable = bytes ++ rest → name ≠ [] →
      1 ≤ (elements.valuesOf name).length →
      ∃ stored, (requestOf RequestScanner.llhttp buf).headers.lookup name =
          some stored ∧
        JoinedByCommas (elements.valuesOf name) stored := by
  intro always
  obtain ⟨stored, found, joined⟩ := always _ _ _ _ (ascii "Accept")
    accept_delivered (received_readable _) (by decide) (by decide)
  rw [requestOf_eq accept_delivered (received_readable _),
    lookup_assembled (by decide), if_neg (by decide),
    Option.some.injEq] at found
  rw [← found, joinedByCommas_flatten_iff] at joined
  revert joined
  decide

end LLhttpParser

end KitMuduo
