import KitMuduo.RequestScanner

/-!
# A scanner for requests with a body

The scanner for heads, and behind the head as many bytes as its length field
says.  The callbacks of the head tell the field.
-/

namespace KitMuduo

/-- The name of the present header line, whether its value has begun, and the
length read so far. -/
structure LengthField where
  name : Bytes := []
  inValue : Bool := false
  length : Nat := 0
  deriving DecidableEq

namespace LengthField

def addDigit (length : Nat) (c : UInt8) : Nat :=
  10 * length + (c.toNat - 48)

def note (line : LengthField) : Callback → LengthField
  | .onHeaderField data =>
      { line with
        name := if line.inValue then data else line.name ++ data
        inValue := false }
  | .onHeaderValue data =>
      { line with
        inValue := true
        length :=
          if line.name.map ContentType.tolower = ascii "content-length" then
            data.foldl addDigit line.length
          else
            line.length }
  | _ => line

end LengthField

/-- The head with its length field, or the body with the number of bytes that
are missing. -/
inductive UploadScanner
  | head (scanner : RequestScanner) (line : LengthField)
  | body (left : Nat)
  deriving DecidableEq

namespace UploadScanner

def start : UploadScanner :=
  head .method {}

/-- The bytes from `position` on belong to the body. -/
def scanBody (callbacks : List Callback) (left position : Nat) (data : Bytes) :
    Executed UploadScanner :=
  if data.length < left then
    ⟨body (left - data.length),
      callbacks ++ (if data = [] then [] else [.onBody data]), .HPE_OK, none⟩
  else
    ⟨start, callbacks ++ [.onBody (data.take left), .onMessageComplete],
      .HPE_PAUSED, some (position + left : Nat)⟩

def execute : UploadScanner → Bytes → Executed UploadScanner
  | body left, data => scanBody [] left 0 data
  | head scanner line, data =>
      let executed := scanner.scan [] 0 data
      let line := executed.callbacks.foldl LengthField.note line
      match executed.errorPos with
      | none =>
          ⟨head executed.parser line, executed.callbacks, executed.errno, none⟩
      | some position =>
          if line.length = 0 then
            ⟨start, executed.callbacks, executed.errno, some position⟩
          else
            scanBody executed.callbacks.dropLast line.length position.toNat
              (data.drop position.toNat)

def llhttp : LLhttp UploadScanner where
  llhttp_init := start
  llhttp_resume := id
  llhttp_execute := execute

end UploadScanner

end KitMuduo
