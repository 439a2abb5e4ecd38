import KitMuduo.LLhttpParser

/-!
# A scanner for requests without a body

A small implementation of the interface of llhttp.  It takes in a request line
and header lines byte by byte; the bytes of an element that have come in since
the beginning of the read are its span, which is handed on when the element or
the read ends.
-/

namespace KitMuduo

/-- What the next byte belongs to. -/
inductive RequestScanner
  | method
  | url
  | protocol
  | version
  | lineStart
  | field
  | valueStart
  | value
  | lastFeed
  deriving DecidableEq

namespace RequestScanner

/-- The callback for the span of an unfinished element. -/
def pending (scanner : RequestScanner) (span : Bytes) : List Callback :=
  if span = [] then
    []
  else
    match scanner with
    | method => [.onMethod span]
    | url => [.onUrl span]
    | version => [.onVersion span]
    | field => [.onHeaderField span]
    | value => [.onHeaderValue span]
    | protocol | lineStart | valueStart | lastFeed => []

def calling (callbacks : List Callback) (executed : Executed RequestScanner) :
    Executed RequestScanner :=
  { executed with callbacks := callbacks ++ executed.callbacks }

/-- Spaces end the method and the url, a slash is in front of the version, and
a line ends with a carriage return and a line feed. -/
def scan : RequestScanner → (span : Bytes) → (position : Nat) → Bytes →
    Executed RequestScanner
  | scanner, span, _, [] => ⟨scanner, scanner.pending span, .HPE_OK, none⟩
  | method, span, position, c :: data =>
      if c = 32 then
        calling [.onMethod span] (scan url [] (position + 1) data)
      else
        scan method (span ++ [c]) (position + 1) data
  | url, span, position, c :: data =>
      if c = 32 then
        calling [.onUrl span, .onUrlComplete]
          (scan protocol [] (position + 1) data)
      else
        scan url (span ++ [c]) (position + 1) data
  | protocol, _, position, c :: data =>
      scan (if c = 47 then version else protocol) [] (position + 1) data
  | version, span, position, c :: data =>
      if c = 13 then
        calling [.onVersion span] (scan lineStart [] (position + 1) data)
      else
        scan version (span ++ [c]) (position + 1) data
  | lineStart, _, position, c :: data =>
      if c = 10 then
        scan lineStart [] (position + 1) data
      else if c = 13 then
        scan lastFeed [] (position + 1) data
      else
        scan field [c] (position + 1) data
  | field, span, position, c :: data =>
      if c = 58 then
        calling [.onHeaderField span] (scan valueStart [] (position + 1) data)
      else
        scan field (span ++ [c]) (position + 1) data
  | valueStart, _, position, c :: data =>
      if c = 32 then
        scan valueStart [] (position + 1) data
      else if c = 13 then
        calling [.onHeaderValue []] (scan lineStart [] (position + 1) data)
      else
        scan value [c] (position + 1) data
  | value, span, position, c :: data =>
      if c = 13 then
        calling [.onHeaderValue span] (scan lineStart [] (position + 1) data)
      else
        scan value (span ++ [c]) (position + 1) data
  | lastFeed, _, position, _ :: _ =>
      ⟨method, [.onHeadersComplete, .onMessageComplete], .HPE_PAUSED,
        some (position + 1 : Nat)⟩

def llhttp : LLhttp RequestScanner where
  llhttp_init := method
  llhttp_resume := id
  llhttp_execute := fun scanner data => scanner.scan [] 0 data

end RequestScanner

end KitMuduo
