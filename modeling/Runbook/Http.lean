import Runbook.Failure
import Runbook.Value.Json
import Runbook.Text.Upper

/-!
Requests to other services. A request is built from loosely typed parts and is answered from
outside; a body that is JSON is decoded, any other body stays text.
-/
namespace Runbook

namespace Http

/-- A body is sent as JSON when it is a list or a dictionary, and as it is otherwise. -/
inductive Body where
  | json (v : Value)
  | data (v : Value)

/-- A request as it goes out. -/
structure Request where
  method : String
  url : Value
  headers : Dict
  timeout : Value
  body : Option Body

/-- What comes back over the wire. -/
structure Reply where
  status : Int
  reason : Option String
  body : String

/-- An answer with its body decoded. -/
structure Answer where
  status : Int
  reason : String
  data : Value

/-- The methods that send no body. -/
def bodiless (method : String) : Bool := method == "GET" || method == "HEAD"

/-- The name of a value's kind in messages. -/
def kindName : Value → String
  | .null => "NoneType"
  | .bool _ => "bool"
  | .int _ => "int"
  | .float _ => "float"
  | .text _ => "str"
  | .list _ => "list"
  | .dict _ => "dict"

/-- Builds a request. A missing method is GET; the headers say that the content is JSON unless
they say otherwise; a missing timeout is the client's. -/
def Request.build (method url headers body timeout standard : Value) : Except Failure Request := do
  let method ← match method.orElse (.text "GET") with
    | .text m => .ok (Text.upper m)
    | _ => .error .noAttribute
  let headers ← match headers.orElse (.dict []) with
    | .dict d => .ok (Dict.merge [(.text "Content-Type", .text "application/json")] d)
    | v => .error (.plain .type ("'" ++ kindName v ++ "' object is not a mapping"))
  return {
    method, url, headers, timeout := timeout.orElse standard
    body :=
      if body.isNull || bodiless method then none
      else
        match body with
        | .list _ | .dict _ => some (.json body)
        | _ => some (.data body) }

def Request.record (r : Request) : Value :=
  .record ([("method", .text r.method), ("url", r.url), ("headers", .dict r.headers),
    ("timeout", r.timeout)] ++
    match r.body with
    | some (.json v) => [("json", v)]
    | some (.data v) => [("data", v)]
    | none => [])

/-- The ways in which a connection can fail. -/
def connectionFailures : List String := [
  "RequestException", "InvalidJSONError", "JSONDecodeError", "HTTPError", "ConnectionError",
  "ProxyError", "SSLError", "Timeout", "ConnectTimeout", "ReadTimeout", "URLRequired",
  "TooManyRedirects", "MissingSchema", "InvalidSchema", "InvalidURL", "InvalidHeader",
  "InvalidProxyURL", "ChunkedEncodingError", "ContentDecodingError", "StreamConsumedError",
  "RetryError", "UnrewindableBodyError"]

/-- A failed connection, by the name of what went wrong. -/
def failed (name text : String) : Failure :=
  if connectionFailures.contains name then .transport name text else .plain .runtime text

/-- Decodes the body of a reply; one that is not JSON stays text. -/
def Reply.answer (r : Reply) : Answer where
  status := r.status
  reason := r.reason.getD ""
  data :=
    match Json.read r.body with
    | .ok v => v
    | .error _ => .text r.body

/-- The statuses that mean success. -/
def Answer.isOk (a : Answer) : Bool := 200 ≤ a.status && a.status < 300

def Answer.record (a : Answer) : Value :=
  .record [("status", .int a.status), ("statusText", .text a.reason), ("data", a.data)]

end Http

/-- The world outside: the replies that are going to come, and the requests that went out. -/
structure Network where
  replies : List (Except Failure Http.Reply) := []
  sent : Array Http.Request := #[]
  /-- The timeout of requests that name none. -/
  timeout : Value := .float 30.0

namespace Network

/-- The reply when nothing else is going to come. -/
def plainReply : Http.Reply := ⟨200, some "OK", "\x7b\"ok\": true\x7d"⟩

/-- Sends a request. -/
def send (n : Network) (r : Http.Request) : Except Failure Http.Answer × Network :=
  let n := { n with sent := n.sent.push r }
  match n.replies with
  | [] => (.ok plainReply.answer, n)
  | reply :: rest => (reply.map Http.Reply.answer, { n with replies := rest })

end Network

end Runbook
