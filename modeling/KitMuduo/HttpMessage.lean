import KitMuduo.Bytes
import KitMuduo.ListSearch
import Mathlib.Data.Finmap

/-!
# HTTP requests and responses

The data types of `http_util.h`, `http_request.h` and `http_response.h`.
Headers and parameters live in `std::unordered_map`s, which are finite maps
from byte strings to byte strings.
-/

namespace KitMuduo

open ListSearch

/-- `std::unordered_map<std::string, std::string>`. -/
abbrev StringMap := Finmap fun _ : Bytes => Bytes

/-- `HttpRequest::Method`. -/
inductive Method
  | kInvaild
  | kGet
  | kPost
  | kHead
  | kPut
  | kDelete
  deriving DecidableEq

namespace Method

def toString : Method → Bytes
  | kGet => ascii "GET"
  | kPost => ascii "POST"
  | kHead => ascii "HEAD"
  | kPut => ascii "PUT"
  | kDelete => ascii "DELETE"
  | kInvaild => ascii "Invaild"

def FromString (methodStr : Bytes) : Method :=
  if methodStr = ascii "GET" then kGet
  else if methodStr = ascii "POST" then kPost
  else if methodStr = ascii "HEAD" then kHead
  else if methodStr = ascii "PUT" then kPut
  else if methodStr = ascii "DELETE" then kDelete
  else kInvaild

end Method

inductive Version
  | kUnknow
  | kHttp10
  | kHttp11
  | kRtsp10
  deriving DecidableEq

namespace Version

def toString : Version → Bytes
  | kHttp10 => ascii "HTTP/1.0"
  | kHttp11 => ascii "HTTP/1.1"
  | kRtsp10 => ascii "RTSP/1.0"
  | kUnknow => []

def FromString (versionStr : Bytes) : Version :=
  if versionStr = ascii "HTTP/1.0" then kHttp10
  else if versionStr = ascii "HTTP/1.1" then kHttp11
  else if versionStr = ascii "RTSP/1.0" then kRtsp10
  else kUnknow

end Version

inductive ContentType
  | kUnknowType
  | kJsonType
  | kXmlType
  | kPlainType
  | kImageJpgType
  | kMultiForm
  | kOctetStream
  | kHtml
  | kCss
  | kJavaScript
  deriving DecidableEq

namespace ContentType

/-- `std::isalpha(c) ? std::tolower(c) : c` in the "C" locale. -/
def tolower (c : UInt8) : UInt8 :=
  if 65 ≤ c ∧ c ≤ 90 then c + 32 else c

def FromString (contentTypeStr : Bytes) : ContentType :=
  let tmp := contentTypeStr.map tolower
  if (search (ascii "json") tmp).isSome then kJsonType
  else if (search (ascii "xml") tmp).isSome then kXmlType
  else if (search (ascii "plain") tmp).isSome then kPlainType
  else if (search (ascii "jpeg") tmp).isSome then kImageJpgType
  else if (search (ascii "multipart") tmp).isSome then kMultiForm
  else if (search (ascii "stream") tmp).isSome then kOctetStream
  else kUnknowType

end ContentType

-- The codes of `StateCode` the server itself answers with.
namespace StateCode

def kUnknow : Int := 0
def k200Ok : Int := 200
def k400BadRequest : Int := 400
def k404NotFound : Int := 404
def k405MethodNotAllowed : Int := 405
def k503ServiceUnavailable : Int := 503

end StateCode

/-- `class Body`; a fresh body is plain text. -/
structure Body where
  contentType : ContentType := .kPlainType
  data : Bytes := []
  deriving DecidableEq

namespace Body

def setContentType (body : Body) (contentType : ContentType) : Body :=
  { body with contentType := contentType }

def appendData (body : Body) (data : Bytes) : Body :=
  { body with data := body.data ++ data }

def reset (body : Body) : Body :=
  { body with data := [] }

end Body

structure HttpRequest where
  method : Method := .kInvaild
  path : Bytes := []
  queryParams : StringMap := ∅
  routeParams : StringMap := ∅
  version : Version := .kUnknow
  headers : StringMap := ∅
  body : Body := {}
  deriving DecidableEq

namespace HttpRequest

def getQureyParam (request : HttpRequest) (key : Bytes) : Bytes :=
  (request.queryParams.lookup key).getD []

def addQureyParam (request : HttpRequest) (key val : Bytes) : HttpRequest :=
  { request with queryParams := request.queryParams.insert key val }

def getRouteParam (request : HttpRequest) (key : Bytes) : Bytes :=
  (request.routeParams.lookup key).getD []

def addRouteParam (request : HttpRequest) (key val : Bytes) : HttpRequest :=
  { request with routeParams := request.routeParams.insert key val }

def getHeader (request : HttpRequest) (key : Bytes) : Bytes :=
  (request.headers.lookup key).getD []

end HttpRequest

structure HttpResponse where
  stateCode : Int := StateCode.kUnknow
  version : Version := .kUnknow
  headers : StringMap := ∅
  connectionClosed : Bool := false
  body : Body := {}
  deriving DecidableEq

namespace HttpResponse

def addHeader (response : HttpResponse) (head val : Bytes) : HttpResponse :=
  { response with headers := response.headers.insert head val }

def getHeader (response : HttpResponse) (key : Bytes) : Bytes :=
  (response.headers.lookup key).getD []

end HttpResponse

/-- The progress of a parser, `HttpContext::HttpParseState`. -/
inductive HttpParseState
  | kExpectRequestLine
  | kExpectHeaders
  | kExpectBody
  | kGotAll
  deriving DecidableEq

/-- The request and response objects of one exchange. -/
structure HttpContext where
  state : HttpParseState := .kExpectRequestLine
  request : HttpRequest := {}
  response : HttpResponse := {}
  deriving DecidableEq

namespace HttpContext

def gotAll (context : HttpContext) : Bool :=
  context.state = .kGotAll

end HttpContext

end KitMuduo
