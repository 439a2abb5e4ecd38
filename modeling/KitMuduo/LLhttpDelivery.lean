import KitMuduo.LLhttpParser
import KitMuduo.ReadCuts

/-!
# How llhttp delivers requests

A complete request has its elements somewhere in its bytes.  While the reads go
in one after the other, llhttp hands every element to its callback in
consecutive fragments, cut where a read ends, followed by the callback for its
completion; all bytes are taken in until the request is complete, and there
llhttp pauses.
-/

namespace KitMuduo

open ListSegment ReadCuts

/-- Where an element lies in the bytes of a request. -/
structure Extent where
  start : Nat
  length : Nat
  deriving DecidableEq

/-- The bytes of a complete request and its elements.  The body of a chunked
request is an element per chunk, and trailers are header lines behind them. -/
structure CompleteRequest where
  bytes : Bytes
  method : Extent
  url : Extent
  version : Extent
  headers : List (Extent × Extent)
  body : List Extent
  trailers : List (Extent × Extent)
  deriving DecidableEq

/-- The fragments in which the elements of a request are handed on. -/
structure RequestFragments where
  method : List Bytes
  url : List Bytes
  version : List Bytes
  headers : List (List Bytes × List Bytes)
  body : List (List Bytes)
  trailers : List (List Bytes × List Bytes)
  deriving DecidableEq

namespace Extent

/-- The fragments of the element in the request `bytes`, if reads end at
`cuts`. -/
structure Cut (extent : Extent) (bytes : Bytes) (cuts : List Nat)
    (fragments : List Bytes) : Prop where
  cut : CutAt cuts extent.start fragments
  flatten : fragments.flatten = segment bytes extent.start extent.length

end Extent

namespace RequestFragments

/-- The callbacks for a header line. -/
def headerCallbacks (header : List Bytes × List Bytes) : List Callback :=
  header.1.map .onHeaderField ++ header.2.map .onHeaderValue

/-- The callbacks of a request but the last one, `onMessageComplete`. -/
def callbacks (f : RequestFragments) : List Callback :=
  f.method.map .onMethod ++ f.url.map .onUrl ++ [.onUrlComplete] ++
    f.version.map .onVersion ++ f.headers.flatMap headerCallbacks ++
    [.onHeadersComplete] ++ f.body.flatten.map .onBody ++
    f.trailers.flatMap headerCallbacks

theorem onMessageComplete_not_mem (f : RequestFragments) :
    .onMessageComplete ∉ f.callbacks := by
  simp [callbacks, headerCallbacks]

/-- Every element in one fragment. -/
def joined (f : RequestFragments) : RequestFragments where
  method := [f.method.flatten]
  url := [f.url.flatten]
  version := [f.version.flatten]
  headers := f.headers.map fun header =>
    ([header.1.flatten], [header.2.flatten])
  body := f.body.map fun element => [element.flatten]
  trailers := f.trailers.map fun header =>
    ([header.1.flatten], [header.2.flatten])

/-- The fragments of all elements of the request. -/
structure CutFrom (f : RequestFragments) (request : CompleteRequest)
    (cuts : List Nat) : Prop where
  method : request.method.Cut request.bytes cuts f.method
  url : request.url.Cut request.bytes cuts f.url
  version : request.version.Cut request.bytes cuts f.version
  headers : List.Forall₂
    (fun (extents : Extent × Extent) (header : List Bytes × List Bytes) =>
      extents.1.Cut request.bytes cuts header.1 ∧
        extents.2.Cut request.bytes cuts header.2)
    request.headers f.headers
  body : List.Forall₂ (fun extent => Extent.Cut extent request.bytes cuts)
    request.body f.body
  trailers : List.Forall₂
    (fun (extents : Extent × Extent) (header : List Bytes × List Bytes) =>
      extents.1.Cut request.bytes cuts header.1 ∧
        extents.2.Cut request.bytes cuts header.2)
    request.trailers f.trailers

end RequestFragments

/-- A request and the fragments in which it is delivered. -/
structure Delivery where
  request : CompleteRequest
  fragments : RequestFragments
  deriving DecidableEq

namespace Delivery

def inOnePiece (d : Delivery) : Delivery :=
  { d with fragments := d.fragments.joined }

end Delivery

namespace LLhttp

variable {σ : Type*}

/-- The reads leave a request incomplete: all their bytes are taken in, and no
error position is set.  An empty read does not get to the parser. -/
inductive Partway (llhttp : LLhttp σ) :
    σ → List Bytes → List Callback → σ → Prop
  | nil {s : σ} : Partway llhttp s [] [] s
  | empty {s t : σ} {reads : List Bytes} {callbacks : List Callback} :
      Partway llhttp s reads callbacks t →
      Partway llhttp s ([] :: reads) callbacks t
  | cons {s t u : σ} {read : Bytes} {reads : List Bytes}
      {callbacks later : List Callback} :
      read ≠ [] →
      llhttp.llhttp_execute s read = ⟨t, callbacks, .HPE_OK, none⟩ →
      Partway llhttp t reads later u →
      Partway llhttp s (read :: reads) (callbacks ++ later) u

/-- The reads bring the requests one behind the other, each to a fresh parser.
The last read of a request brings its last byte, `rest` is what comes behind
it. -/
inductive Delivers (llhttp : LLhttp σ) : List Delivery → List Bytes → Prop
  | nil : Delivers llhttp [] []
  | empty {deliveries : List Delivery} {reads : List Bytes} :
      Delivers llhttp deliveries reads →
      Delivers llhttp deliveries ([] :: reads)
  | request {d : Delivery} {deliveries : List Delivery}
      {front reads : List Bytes} {last rest : Bytes} {s t : σ}
      {callbacks ending : List Callback} :
      Partway llhttp llhttp.llhttp_init front callbacks s →
      last ≠ [] →
      llhttp.llhttp_execute s (last ++ rest) =
        ⟨t, ending ++ [.onMessageComplete], .HPE_PAUSED, some last.length⟩ →
      front.flatten ++ last = d.request.bytes →
      callbacks ++ ending = d.fragments.callbacks →
      d.fragments.CutFrom d.request (ends 0 front) →
      Delivers llhttp deliveries (rest :: reads) →
      Delivers llhttp (d :: deliveries) (front ++ (last ++ rest) :: reads)

end LLhttp

end KitMuduo
