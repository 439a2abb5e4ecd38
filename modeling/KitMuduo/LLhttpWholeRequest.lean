import KitMuduo.LLhttpParserReads

/-!
# A request that comes in one read

All bytes of the request are in the buffer when the parser is called, maybe
with further bytes behind them.  Every element goes to its callback whole, and
llhttp pauses behind the last byte of the request.
-/

namespace KitMuduo

/-- The elements of a request, in the order of its bytes. -/
structure RequestElements where
  method : Bytes
  url : Bytes
  version : Bytes
  headers : List (Bytes × Bytes)
  body : List Bytes
  trailers : List (Bytes × Bytes)
  deriving DecidableEq

namespace RequestElements

/-- Every element in one fragment. -/
def fragments (elements : RequestElements) : RequestFragments where
  method := [elements.method]
  url := [elements.url]
  version := [elements.version]
  headers := elements.headers.map fun header => ([header.1], [header.2])
  body := elements.body.map fun element => [element]
  trailers := elements.trailers.map fun header => ([header.1], [header.2])

theorem fragments_present (elements : RequestElements) :
    elements.fragments.Present where
  method := by simp [fragments]
  url := by simp [fragments]
  version := by simp [fragments]
  headers := List.forall_mem_map.mpr fun _ _ => by simp
  body := by simp [fragments]
  trailers := List.forall_mem_map.mpr fun _ _ => by simp

end RequestElements

/-- The bytes, with `rest` behind them, are taken for a request with these
elements. -/
def LLhttp.DeliversAtOnce {σ : Type*} (llhttp : LLhttp σ) (bytes rest : Bytes)
    (elements : RequestElements) : Prop :=
  ∃ s, llhttp.llhttp_execute llhttp.llhttp_init (bytes ++ rest) =
    ⟨s, elements.fragments.callbacks ++ [.onMessageComplete], .HPE_PAUSED,
      some bytes.length⟩

namespace LLhttpParser

variable {σ : Type*} {llhttp : LLhttp σ} {bytes rest : Bytes}
  {elements : RequestElements} {buf : Buffer}

/-- A fresh parser has the whole request, its bytes are off the buffer. -/
theorem parseRequest_of_deliversAtOnce
    (delivers : llhttp.DeliversAtOnce bytes rest elements)
    (received : buf.readable = bytes ++ rest) :
    ∃ p : LLhttpParser σ,
      (new llhttp).parseRequest llhttp buf = (true, p, buf.reset bytes.length) ∧
        p.context.state = .kGotAll ∧
        p.context.request = elements.fragments.assembled := by
  obtain ⟨s, executed⟩ := delivers
  have within : bytes.length ≤ buf.readable.length := by
    rw [received, List.length_append]
    exact Nat.le_add_right _ _
  rw [← received] at executed
  refine ⟨_, (running_new llhttp).parse_paused executed within, ?_, ?_⟩
  · rw [List.foldl_append]
    rfl
  · rw [List.foldl_append]
    exact elements.fragments_present.request_eq rfl rfl rfl

/-- The request a fresh parser has put together after one read. -/
def requestOf (llhttp : LLhttp σ) (buf : Buffer) : HttpRequest :=
  ((new llhttp).parseRequest llhttp buf).2.1.context.request

theorem requestOf_eq (delivers : llhttp.DeliversAtOnce bytes rest elements)
    (received : buf.readable = bytes ++ rest) :
    requestOf llhttp buf = elements.fragments.assembled := by
  obtain ⟨p, parsed, _, request⟩ :=
    parseRequest_of_deliversAtOnce delivers received
  rw [requestOf, parsed, request]

end LLhttpParser

end KitMuduo
