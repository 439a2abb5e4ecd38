import KitMuduo.MultiFormParser

/-!
# Multipart encoding

What a client writes: each part behind a boundary line, its header lines, a
blank line and its data, all with CRLF line ends, and a closing boundary.  The
parser is stated to invert this for parts whose lines cannot be taken for
something else.
-/

namespace KitMuduo

namespace MultiFormParser

def crlf : Bytes := [cr, lf]

/-- A part of an upload, its header fields in the order in which they are
written. -/
structure UploadPart where
  name : Bytes
  filename : Option Bytes
  contentType : Option Bytes
  headers : List (Bytes × Bytes)
  data : Bytes

/-- An attribute of the disposition with its value. -/
def quoted (attr value : Bytes) : Bytes :=
  attr ++ value ++ [34]

namespace UploadPart

def filenameAttr : Option Bytes → Bytes
  | none => []
  | some filename => ascii "; " ++ quoted (ascii "filename=\"") filename

def dispositionLine (part : UploadPart) : Bytes :=
  ascii "Content-Disposition: form-data; " ++
    quoted (ascii "name=\"") part.name ++ filenameAttr part.filename

def contentTypeLine (contentType : Bytes) : Bytes :=
  ascii "Content-Type: " ++ contentType

def headerLine (header : Bytes × Bytes) : Bytes :=
  header.1 ++ ascii ": " ++ header.2

/-- The lines below the first. -/
def furtherLines (part : UploadPart) : List Bytes :=
  part.contentType.toList.map contentTypeLine ++ part.headers.map headerLine

def lines (part : UploadPart) : List Bytes :=
  part.dispositionLine :: part.furtherLines

end UploadPart

/-- `--B`. -/
def delimiter (boundary : Bytes) : Bytes :=
  ascii "--" ++ boundary

def encodePart (boundary : Bytes) (part : UploadPart) : Bytes :=
  delimiter boundary ++ crlf ++ part.lines.flatMap (· ++ crlf) ++ crlf ++
    part.data ++ crlf

def encode (boundary preamble epilogue : Bytes) (parts : List UploadPart) :
    Bytes :=
  preamble ++ parts.flatMap (encodePart boundary) ++ delimiter boundary ++
    ascii "--" ++ epilogue

/-- The value of the header field that goes with the encoding. -/
def multipartType (boundary : Bytes) : Bytes :=
  ascii "multipart/form-data; boundary=" ++ boundary

/-- No blank at either end. -/
def Trimmed (s : Bytes) : Prop :=
  ∀ c, s.head? = some c ∨ s.getLast? = some c → isBlank c = false

structure BoundaryAllowed (boundary : Bytes) : Prop where
  nonempty : boundary ≠ []
  noQuote : 34 ∉ boundary
  noSemicolon : 59 ∉ boundary
  noCr : cr ∉ boundary
  noLf : lf ∉ boundary
  trimmed : Trimmed boundary

structure PreambleAllowed (boundary preamble : Bytes) : Prop where
  ends : preamble = [] ∨ crlf <:+ preamble
  clear : ¬ delimiter boundary <:+: preamble

/-- A value that can stand between quotes. -/
structure Quotable (value : Bytes) : Prop where
  noQuote : 34 ∉ value
  noEquals : 61 ∉ value
  noCr : cr ∉ value
  noLf : lf ∉ value

/-- In front of the boundary that ends the data no occurrence of LF and `--B` is
followed by a byte that may follow a boundary. -/
def DataAllowed (boundary data : Bytes) : Prop :=
  let text := lf :: data ++ crlf ++ delimiter boundary
  let marker := lf :: delimiter boundary
  ∀ position < data.length + 2, marker <+: text.drop position →
    ∃ c rest, text.drop (position + marker.length) = c :: rest ∧
      c ≠ cr ∧ c ≠ lf ∧ c ≠ 45 ∧ c ≠ 32 ∧ c ≠ 9

structure PartAllowed (boundary : Bytes) (part : UploadPart) : Prop where
  name_ne : part.name ≠ []
  name : Quotable part.name
  filename : ∀ filename, part.filename = some filename → Quotable filename
  contentType : ∀ contentType, part.contentType = some contentType →
    Trimmed contentType
  distinct : (part.headers.map Prod.fst).Nodup
  header : ∀ header ∈ part.headers, 58 ∉ header.1 ∧ Trimmed header.2
  data : DataAllowed boundary part.data

/-- A header field that is read back as written: it is one line with a name of
its own, and the line is none that ends the part. -/
structure HeaderLineAllowed (boundary : Bytes) (header : Bytes × Bytes) :
    Prop where
  name_ne : header.1 ≠ []
  name_trimmed : Trimmed header.1
  name_noLf : lf ∉ header.1
  value_noLf : lf ∉ header.2
  not_disposition : header.1 ≠ ascii "Content-Disposition"
  not_contentType : header.1 ≠ ascii "Content-Type"
  not_delimiter : ∀ c, c = cr ∨ c = 45 ∨ c = 32 ∨ c = 9 →
    ¬ delimiter boundary ++ [c] <+: UploadPart.headerLine header ++ [cr]

structure LinesAllowed (boundary : Bytes) (part : UploadPart) : Prop where
  contentType_noLf : ∀ contentType, part.contentType = some contentType →
    lf ∉ contentType
  header : ∀ header ∈ part.headers, HeaderLineAllowed boundary header

/-- The parsed part holds what the uploaded part holds. -/
structure HoldsPart (formPart : FormPart) (part : UploadPart) : Prop where
  name : formPart.name = part.name
  filename : formPart.filename = part.filename.getD []
  contentType : formPart.contentType = part.contentType.getD []
  headers : ∀ name value, formPart.headers.lookup name = some value ↔
    (name, value) ∈ part.headers
  data : formPart.data = part.data

/-- One entry for each name, which holds the last part of the name. -/
structure HoldsParts (map : PartMap) (parts : List UploadPart) : Prop where
  names : ∀ name, name ∈ map ↔ name ∈ parts.map UploadPart.name
  last : ∀ front part back, parts = front ++ part :: back →
    part.name ∉ back.map UploadPart.name →
      ∃ formPart, map.lookup part.name = some formPart ∧
        HoldsPart formPart part

end MultiFormParser

end KitMuduo
