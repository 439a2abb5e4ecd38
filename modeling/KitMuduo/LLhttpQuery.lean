import KitMuduo.HexDigits
import KitMuduo.LLhttpParser
import KitMuduo.ListSearch

/-!
# Query strings of request targets

A query is written as pairs of a key and a value, joined by ampersands.  Each
byte may be escaped with digits of either case, some bytes have to be, and a
space may be a plus sign.  `parseUrl` splits such a query before it decodes the
pieces, and yet it finds the pairs again.
-/

namespace KitMuduo

namespace LLhttpParser

open HexDigits

/-- The ways a byte is written.  Percent sign, ampersand and plus sign are
escaped, and in keys the sign of equality as well. -/
inductive EncodesByte (inKey : Bool) : UInt8 → Bytes → Prop
  | escape {byte first second : UInt8} (high : IsDigitOf (high byte) first)
      (low : IsDigitOf (low byte) second) :
      EncodesByte inKey byte [37, first, second]
  | plus : EncodesByte inKey 32 [43]
  | itself {byte : UInt8} (noPercent : byte ≠ 37) (noAmpersand : byte ≠ 38)
      (noPlus : byte ≠ 43) (noEqual : inKey = true → byte ≠ 61) :
      EncodesByte inKey byte [byte]

/-- The ways a key or a value is written. -/
inductive Encodes (inKey : Bool) : Bytes → Bytes → Prop
  | nil : Encodes inKey [] []
  | cons {byte : UInt8} {bytes piece pieces : Bytes}
      (head : EncodesByte inKey byte piece)
      (tail : Encodes inKey bytes pieces) :
      Encodes inKey (byte :: bytes) (piece ++ pieces)

/-- The segments of a query between the ampersands; they may be empty. -/
inductive EncodesPairs : List (Bytes × Bytes) → List Bytes → Prop
  | nil : EncodesPairs [] []
  | empty {pairs : List (Bytes × Bytes)} {segments : List Bytes}
      (tail : EncodesPairs pairs segments) : EncodesPairs pairs ([] :: segments)
  | pair {key val keyPiece valPiece : Bytes} {pairs : List (Bytes × Bytes)}
      {segments : List Bytes} (key_encoded : Encodes true key keyPiece)
      (val_encoded : Encodes false val valPiece)
      (tail : EncodesPairs pairs segments) :
      EncodesPairs ((key, val) :: pairs)
        ((keyPiece ++ 61 :: valPiece) :: segments)

def EncodesQuery (pairs : List (Bytes × Bytes)) (query : Bytes) : Prop :=
  ∃ segments, EncodesPairs pairs segments ∧ query = [38].intercalate segments

variable {inKey : Bool} {byte : UInt8} {bytes piece : Bytes}

/-- Bytes that need no escape may be written as they are. -/
theorem Encodes.self (plain : ∀ byte ∈ bytes, byte ∉ [37, 38, 43, 61]) :
    Encodes inKey bytes bytes := by
  induction bytes with
  | nil => exact .nil
  | cons byte bytes ih =>
      rw [List.forall_mem_cons] at plain
      have head : EncodesByte inKey byte [byte] := by
        apply EncodesByte.itself <;> simp_all
      exact .cons head (ih plain.2)

/-! ## Digits -/

theorem IsHexDigit_of_isDigitOf {nibble : Fin 16} {digit : UInt8}
    (digitOf : IsDigitOf nibble digit) : IsHexDigit digit = true := by
  rcases digitOf with rfl | rfl
  · revert nibble
    decide
  · revert nibble
    decide

theorem HexToInt_of_isDigitOf {nibble : Fin 16} {digit : UInt8}
    (digitOf : IsDigitOf nibble digit) :
    HexToInt digit = UInt8.ofNat nibble := by
  rcases digitOf with rfl | rfl
  · revert nibble
    decide
  · revert nibble
    decide

theorem HexToInt_high_low {first second : UInt8}
    (high : IsDigitOf (high byte) first) (low : IsDigitOf (low byte) second) :
    HexToInt first * 16 + HexToInt second = byte := by
  rw [HexToInt_of_isDigitOf high, HexToInt_of_isDigitOf low]
  calc
    _ = byteOf (HexDigits.high byte) (HexDigits.low byte) := by simp [byteOf]
    _ = byte := byteOf_high_low byte

/-! ## Decoding of a key or a value -/

theorem UrlDecode_cons_of_ne (noPercent : byte ≠ 37) (noPlus : byte ≠ 43)
    (rest : Bytes) : UrlDecode (byte :: rest) = byte :: UrlDecode rest := by
  rw [UrlDecode]
  · intro first second value same
    exact absurd same noPercent
  · exact noPlus

theorem UrlDecode_encodesByte (encoded : EncodesByte inKey byte piece)
    (rest : Bytes) : UrlDecode (piece ++ rest) = byte :: UrlDecode rest := by
  cases encoded with
  | escape high low =>
      simp only [List.cons_append, List.nil_append, UrlDecode]
      rw [IsHexDigit_of_isDigitOf high, IsHexDigit_of_isDigitOf low]
      simp [HexToInt_high_low high low]
  | plus => rfl
  | itself noPercent noAmpersand noPlus noEqual =>
      exact UrlDecode_cons_of_ne noPercent noPlus rest

theorem UrlDecode_encodes (encoded : Encodes inKey bytes piece) :
    UrlDecode piece = bytes := by
  induction encoded with
  | nil => rfl
  | cons head tail ih => rw [UrlDecode_encodesByte head, ih]

/-! ## Separators -/

theorem EncodesByte.not_mem (encoded : EncodesByte inKey byte piece)
    (separator : UInt8) (noDigit : ¬ IsDigit separator)
    (noSign : separator ≠ 37 ∧ separator ≠ 43) (other : piece ≠ [separator]) :
    separator ∉ piece := by
  cases encoded with
  | escape high low =>
      have first := high.ne_of_not_isDigit noDigit
      have second := low.ne_of_not_isDigit noDigit
      simp [noSign.1, first.symm, second.symm]
  | plus => simp [noSign.2]
  | itself noPercent noAmpersand noPlus noEqual =>
      simpa [eq_comm] using other

theorem Encodes.ampersand_not_mem (encoded : Encodes inKey bytes piece) :
    38 ∉ piece := by
  induction encoded with
  | nil => simp
  | cons head tail ih =>
      have other := head.not_mem 38 (by decide) (by decide) (by
        rintro rfl
        cases head with
        | itself noPercent noAmpersand noPlus noEqual => exact noAmpersand rfl)
      simp [other, ih]

theorem Encodes.equal_not_mem (encoded : Encodes true bytes piece) :
    61 ∉ piece := by
  induction encoded with
  | nil => simp
  | cons head tail ih =>
      have other := head.not_mem 61 (by decide) (by decide) (by
        rintro rfl
        cases head with
        | itself noPercent noAmpersand noPlus noEqual => exact noEqual rfl rfl)
      simp [other, ih]

theorem EncodesPairs.ampersand_not_mem {pairs : List (Bytes × Bytes)}
    {segments : List Bytes} (encoded : EncodesPairs pairs segments) :
    ∀ segment ∈ segments, 38 ∉ segment := by
  induction encoded with
  | nil => simp
  | empty tail ih => simpa using ih
  | pair key_encoded val_encoded tail ih =>
      simpa [key_encoded.ampersand_not_mem, val_encoded.ampersand_not_mem]
        using ih

/-! ## The parameters of a query -/

/-- What `parseQueryParam` does with the segment of a pair. -/
theorem parseQueryParam_pair {key val keyPiece valPiece : Bytes}
    (named : key ≠ []) (key_encoded : Encodes true key keyPiece)
    (val_encoded : Encodes false val valPiece) (request : HttpRequest) :
    parseQueryParam request (keyPiece ++ 61 :: valPiece) =
      request.addQureyParam key val := by
  have position : (keyPiece ++ 61 :: valPiece).idxOf? 61 =
      some keyPiece.length :=
    ListSearch.idxOf?_append_cons valPiece key_encoded.equal_not_mem
  rw [parseQueryParam, if_neg (by simp), position]
  simp [UrlDecode_encodes key_encoded, UrlDecode_encodes val_encoded, named]

theorem foldl_parseQueryParam {pairs : List (Bytes × Bytes)}
    {segments : List Bytes} (encoded : EncodesPairs pairs segments)
    (named : ∀ pair ∈ pairs, pair.1 ≠ []) (request : HttpRequest) :
    segments.foldl parseQueryParam request =
      pairs.foldl (fun request pair => request.addQureyParam pair.1 pair.2)
        request := by
  induction encoded generalizing request with
  | nil => rfl
  | empty tail ih =>
      rw [List.foldl_cons, parseQueryParam, if_pos rfl, ih named]
  | pair key_encoded val_encoded tail ih =>
      rw [List.forall_mem_cons] at named
      rw [List.foldl_cons, List.foldl_cons,
        parseQueryParam_pair named.1 key_encoded val_encoded, ih named.2]

theorem parseQueryParams_encodes {pairs : List (Bytes × Bytes)} {query : Bytes}
    (encoded : EncodesQuery pairs query) (named : ∀ pair ∈ pairs, pair.1 ≠ [])
    (request : HttpRequest) :
    parseQueryParams query request =
      pairs.foldl (fun request pair => request.addQureyParam pair.1 pair.2)
        request := by
  obtain ⟨segments, encoded, rfl⟩ := encoded
  rw [← foldl_parseQueryParam encoded named]
  cases segments with
  | nil => rfl
  | cons segment segments =>
      rw [parseQueryParams, List.splitOn_intercalate 38
        encoded.ampersand_not_mem (by simp)]

/-- Of parameters with one key the last one counts, and a key without any keeps
its value. -/
theorem getQureyParam_foldl (pairs : List (Bytes × Bytes))
    (request : HttpRequest) (key : Bytes) :
    (pairs.foldl (fun request pair => request.addQureyParam pair.1 pair.2)
        request).getQureyParam key =
      (pairs.reverse.lookup key).getD (request.getQureyParam key) := by
  induction pairs using List.reverseRecOn with
  | nil => rfl
  | append_singleton pairs pair ih =>
      rw [List.foldl_append, List.reverse_concat, List.lookup_cons]
      by_cases same : key = pair.1
      · subst same
        simp [HttpRequest.getQureyParam, HttpRequest.addQureyParam]
      · simp only [List.foldl_cons, List.foldl_nil, HttpRequest.getQureyParam,
          HttpRequest.addQureyParam] at ih ⊢
        rw [Finmap.lookup_insert_of_ne _ same, ih, beq_false_of_ne same]

theorem path_foldl (pairs : List (Bytes × Bytes)) (request : HttpRequest) :
    (pairs.foldl (fun request pair => request.addQureyParam pair.1 pair.2)
      request).path = request.path := by
  induction pairs generalizing request with
  | nil => rfl
  | cons pair pairs ih => rw [List.foldl_cons, ih, HttpRequest.addQureyParam]

/-- A path without a question mark comes back from in front of an encoded
query, and so do the pairs: the last value of each key.  All other keys have
what the request had for them, and so nothing if it is fresh. -/
theorem parseUrl_encodes {path query : Bytes} {pairs : List (Bytes × Bytes)}
    (noQuery : 63 ∉ path) (named : ∀ pair ∈ pairs, pair.1 ≠ [])
    (encoded : EncodesQuery pairs query) (request : HttpRequest) :
    (parseUrl (path ++ 63 :: query) request).path = path ∧
      (∀ key, (parseUrl (path ++ 63 :: query) request).getQureyParam key =
        (pairs.reverse.lookup key).getD (request.getQureyParam key)) ∧
      (request.queryParams = ∅ → ∀ key,
        (parseUrl (path ++ 63 :: query) request).getQureyParam key =
          (pairs.reverse.lookup key).getD []) := by
  have position : (path ++ 63 :: query).idxOf? 63 = some path.length :=
    ListSearch.idxOf?_append_cons query noQuery
  have parsed : parseUrl (path ++ 63 :: query) request =
      pairs.foldl (fun request pair => request.addQureyParam pair.1 pair.2)
        { request with path := path } := by
    rw [parseUrl, position]
    simp [parseQueryParams_encodes encoded named]
  have found (key : Bytes) :
      (parseUrl (path ++ 63 :: query) request).getQureyParam key =
        (pairs.reverse.lookup key).getD (request.getQureyParam key) := by
    rw [parsed, getQureyParam_foldl]
    rfl
  refine ⟨?_, found, ?_⟩
  · rw [parsed, path_foldl]
  · intro fresh key
    have none : request.getQureyParam key = [] := by
      simp [HttpRequest.getQureyParam, fresh]
    rw [found, none]

theorem parseUrl_encodes_repeated :
    (parseUrl (ascii "/p?a=1&&a=x%2b+y") {}).path = ascii "/p" ∧
      (parseUrl (ascii "/p?a=1&&a=x%2b+y") {}).getQureyParam (ascii "a") =
        ascii "x+ y" ∧
      (parseUrl (ascii "/p?a=1&&a=x%2b+y") {}).getQureyParam (ascii "b") =
        [] := by
  have key : Encodes true [97] [97] := .self (by simp)
  have one : Encodes false [49] [49] := .self (by simp)
  have mixed : Encodes false [120, 43, 32, 121]
      [120, 37, 50, 98, 43, 121] :=
    .cons (.itself (by decide) (by decide) (by decide) (by decide))
      (.cons (.escape (by decide) (by decide))
        (.cons .plus (.self (by simp))))
  have encoded : EncodesQuery [([97], [49]), ([97], [120, 43, 32, 121])]
      (ascii "a=1&&a=x%2b+y") :=
    ⟨_, .pair key one (.empty (.pair key mixed .nil)), rfl⟩
  obtain ⟨path, _, found⟩ := parseUrl_encodes
    (show 63 ∉ ascii "/p" by simp [ascii]) (by simp) encoded {}
  exact ⟨path, found rfl (ascii "a"), found rfl (ascii "b")⟩

end LLhttpParser

end KitMuduo
