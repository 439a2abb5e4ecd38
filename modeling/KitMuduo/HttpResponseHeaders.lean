import KitMuduo.HttpMessageReprinted
import KitMuduo.HttpServletDispatch

/-!
# The headers a handler sets

`toString` stores headers of its own over those that a handler has set with
`addHeader`.  A header that the protocol does not reserve for the server comes
out as it was set unless a later call replaced the whole map, or it is the
content type and the body has a type of its own, which every fresh body has.
-/

namespace KitMuduo

/-- The only header of this name that a walk meets. -/
theorem filter_name_eq_singleton {headers : List (Bytes × Bytes)}
    {name val : Bytes} (nodup : (headers.map Prod.fst).Nodup)
    (member : (name, val) ∈ headers) :
    headers.filter (·.1 = name) = [(name, val)] := by
  induction headers with
  | nil => cases member
  | cons header headers ih =>
      rw [List.map_cons, List.nodup_cons] at nodup
      rcases List.mem_cons.mp member with rfl | later
      · have others : headers.filter (·.1 = name) = [] := by
          rw [List.filter_eq_nil_iff]
          intro other inRest same
          have named : other.1 = name := by simpa using same
          exact nodup.1 (List.mem_map.mpr ⟨other, inRest, named⟩)
        rw [List.filter_cons_of_pos (by simp), others]
      · have different : header.1 ≠ name := by
          intro same
          exact nodup.1 (List.mem_map.mpr ⟨(name, val), later, same.symm⟩)
        rw [List.filter_cons_of_neg (by simpa using different)]
        exact ih nodup.2 later

namespace HttpResponse

namespace Call

/-- The value a call of `addHeader` gives to a header. -/
def given : Call → Bytes → Option Bytes
  | addHeader head val, name => if name = head then some val else none
  | addHeaderLine head val, name =>
      (trimmedHeader head val).bind fun header =>
        if name = header.1 then some header.2 else none
  | _, _ => none

end Call

/-- The header map that the last call of `setHeaders` put in place. -/
def lastHeaders (made : List Call) : Option StringMap :=
  made.foldl (fun last call =>
    match call with
    | .setHeaders headers => some headers
    | _ => last) none

/-- The header loop of `toString` prints one line for the name, with this
value. -/
def EmitsOnce {map : StringMap} (walk : Traversal map) (name val : Bytes) :
    Prop :=
  walk.elements.filter (·.1 = name) = [(name, val)]

theorem emitsOnce_iff {map : StringMap} (walk : Traversal map)
    {name val : Bytes} :
    EmitsOnce walk name val ↔ map.lookup name = some val := by
  rw [← walk.mem_iff]
  constructor
  · intro once
    have member : (name, val) ∈ walk.elements.filter (·.1 = name) := by
      rw [once]
      exact List.mem_singleton_self _
    exact (List.mem_filter.mp member).1
  · exact filter_name_eq_singleton walk.nodup

variable {name val : Bytes} {call : Call} {front back : List Call}

/-- What a call that is no print leaves under a name. -/
theorem lookup_apply (response : HttpResponse) (noPrint : call ≠ .toString) :
    (response.apply call).headers.lookup name =
      (call.headerCall.written name).getD (response.headers.lookup name) := by
  have silent : messageClass.isToString call = false := by
    cases call <;> first | rfl | exact absurd rfl noPrint
  rw [headers_apply response call silent, HeaderCall.lookup_apply]

theorem written_of_given (given : call.given name = some val) :
    call.headerCall.written name = some (some val) := by
  cases call with
  | addHeader head val =>
      simp only [Call.given] at given
      split at given
      · next same =>
          cases given
          simp [Call.headerCall, HeaderCall.written, same]
      · cases given
  | addHeaderLine head val =>
      obtain ⟨header, trimmed, here⟩ := Option.bind_eq_some_iff.mp given
      split at here
      · next same =>
          cases here
          simp [Call.headerCall, HeaderCall.written, trimmed, same]
      · cases here
  | _ => cases given

/-- Without giving the header a value a call can only replace the map. -/
theorem written_of_not_given (notGiven : call.given name = none) :
    call.headerCall.written name = none ∨
      ∃ headers, call = .setHeaders headers := by
  cases call with
  | addHeader head val =>
      have other : name ≠ head := by
        intro same
        simp [Call.given, same] at notGiven
      simp [Call.headerCall, HeaderCall.written, other]
  | addHeaderLine head val =>
      left
      cases trimmed : trimmedHeader head val with
      | none => simp [Call.headerCall, HeaderCall.written, trimmed]
      | some header =>
          have other : name ≠ header.1 := by
            intro same
            simp [Call.given, trimmed, same] at notGiven
          simp [Call.headerCall, HeaderCall.written, trimmed, other]
  | setHeaders headers => exact .inr ⟨headers, rfl⟩
  | _ => exact .inl rfl

theorem lastHeaders_concat (made : List Call) (call : Call) :
    lastHeaders (made ++ [call]) =
      match call with
      | .setHeaders headers => some headers
      | _ => lastHeaders made := by
  rw [lastHeaders, List.foldl_append]
  rfl

/-- Calls that do not give the header a value leave it alone, but for those that
replace the map. -/
theorem lookup_foldl_apply (response : HttpResponse)
    (noMore : ∀ later ∈ back, later.given name = none)
    (silent : ∀ later ∈ back, later ≠ .toString) :
    (back.foldl apply response).headers.lookup name =
      ((lastHeaders back).map (·.lookup name)).getD
        (response.headers.lookup name) := by
  induction back using List.reverseRecOn with
  | nil => rfl
  | append_singleton back call ih =>
      have known : call ∈ back ++ [call] := by simp
      have before := ih
        (fun other member => noMore other (List.mem_append_left _ member))
        (fun other member => silent other (List.mem_append_left _ member))
      rw [List.foldl_append, List.foldl_cons, List.foldl_nil,
        lookup_apply _ (silent call known), before, lastHeaders_concat]
      rcases written_of_not_given (noMore call known) with
        unwritten | ⟨headers, rfl⟩
      · rw [unwritten, Option.getD_none]
        cases call <;> first | rfl | cases unwritten
      · rfl

/-- However `toString` walks over the headers, it prints this one once. -/
def Survives (made : List Call) (name val : Bytes) : Prop :=
  ∀ walk : Traversal (built made).setOwnHeaders.headers,
    EmitsOnce walk name val

theorem survives_iff_lookup {made : List Call} :
    Survives made name val ↔
      (built made).setOwnHeaders.headers.lookup name = some val := by
  constructor
  · intro survives
    obtain ⟨walk⟩ := Traversal.nonempty (built made).setOwnHeaders.headers
    exact (emitsOnce_iff walk).mp (survives walk)
  · exact fun found walk => (emitsOnce_iff walk).mpr found

/-- What becomes of a header behind the call that set it: the type of the body
goes over a content type, and a later map over every other header. -/
def Untouched (contentType : ContentType) (back : List Call)
    (name val : Bytes) : Prop :=
  if name = ascii "Content-Type" ∧ contentType ≠ .kUnknowType then
    contentTypeStr contentType = val
  else
    ∀ headers, lastHeaders back = some headers → headers.lookup name = some val

/-- The value last given to a header is what is printed exactly if neither the
body's type nor a later map is in its way. -/
theorem survives_iff (given : call.given name = some val)
    (noMore : ∀ later ∈ back, later.given name = none)
    (silent : ∀ later ∈ back, later ≠ .toString)
    (notConnection : name ≠ ascii "Connection")
    (notKeepAlive : name ≠ ascii "Keep-Alive")
    (notLength : name ≠ ascii "Content-Length") :
    Survives (front ++ call :: back) name val ↔
      Untouched (built (front ++ call :: back)).body.contentType back name
        val := by
  have notPrint : call ≠ .toString := by
    rintro rfl
    cases given
  have stored : (built (front ++ call :: back)).headers.lookup name =
      ((lastHeaders back).map (·.lookup name)).getD (some val) := by
    rw [built, List.foldl_append, List.foldl_cons,
      lookup_foldl_apply _ noMore silent, lookup_apply _ notPrint,
      written_of_given given, Option.getD_some]
  rw [survives_iff_lookup, lookup_setOwnHeaders, stored, Untouched]
  generalize built (front ++ call :: back) = response
  by_cases typed : name = ascii "Content-Type" ∧
      response.body.contentType ≠ .kUnknowType
  · have own : response.ownHeader name =
        some (contentTypeStr response.body.contentType) := by
      rw [ownHeader, if_neg fun length => notLength length.1, if_pos typed]
    rw [own, if_pos typed, Option.some_or, Option.some.injEq]
  · have own : response.ownHeader name = none := by
      rw [ownHeader, if_neg fun length => notLength length.1, if_neg typed,
        if_neg fun keepAlive => notKeepAlive keepAlive.1,
        if_neg notConnection]
    rw [own, if_neg typed, Option.none_or]
    cases lastHeaders back with
    | none => simp
    | some headers => simp

/-- A server that names itself. -/
theorem survives_server :
    Survives [.setVersion 2, .addHeader (ascii "Server") (ascii "kit"),
      .setStateCode 200] (ascii "Server") (ascii "kit") := by
  let add := Call.addHeader (ascii "Server") (ascii "kit")
  have given : add.given (ascii "Server") = some (ascii "kit") := rfl
  have survives : Survives ([.setVersion 2] ++ add :: [.setStateCode 200])
      (ascii "Server") (ascii "kit") ↔ _ :=
    survives_iff given (by simp [Call.given]) (by simp) (by decide) (by decide)
      (by decide)
  apply survives.mpr
  rw [Untouched, if_neg (by decide)]
  rintro _ none
  cases none

/-- The calls of `NotFound404Servlet::Handle`. -/
def notFoundCalls : List Call :=
  [.setVersion 2, .setStateCode 404, .setConnectionClosed true,
    .addHeader (ascii "Content-Type") (ascii "text/html"),
    .appendData HttpServletDispatch.notFoundBody]

theorem built_notFoundCalls :
    built notFoundCalls = (HttpServletDispatch.notFound404 {}).response :=
  rfl

/-- The page of the default servlet comes out as plain text. -/
theorem not_survives_notFound :
    ¬ ∀ (front back : List Call) (call : Call) (name val : Bytes),
      call.given name = some val →
      (∀ later ∈ back, later.given name = none) →
      (∀ later ∈ front ++ back, later ≠ .toString) →
      name ≠ ascii "Connection" → name ≠ ascii "Keep-Alive" →
      name ≠ ascii "Content-Length" →
      Survives (front ++ call :: back) name val := by
  intro always
  have survives := always
    [.setVersion 2, .setStateCode 404, .setConnectionClosed true]
    [.appendData HttpServletDispatch.notFoundBody]
    (.addHeader (ascii "Content-Type") (ascii "text/html"))
    (ascii "Content-Type") (ascii "text/html") rfl (by simp [Call.given])
    (by simp) (by decide) (by decide) (by decide)
  rw [survives_iff_lookup, lookup_setOwnHeaders] at survives
  have plain : (built notFoundCalls).ownHeader (ascii "Content-Type") =
      some (ascii "text/plain; charset=utf-8") := by
    rw [built_notFoundCalls]
    decide
  have html : ascii "text/plain; charset=utf-8" = ascii "text/html" :=
    Option.some.inj ((congrArg (Option.or · _) plain).symm.trans survives)
  exact absurd html (by decide)

end HttpResponse

end KitMuduo
