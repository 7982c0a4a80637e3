import FrameMerge.Json.Printer

/-!
# Responses

A response is a status and a value. Its head gives the length of the value's text in octets, and after it the connection
ends.
-/

namespace FrameMerge.Control

/-- How a request was met. -/
inductive Status
  | ok
  | badRequest
  | notFound
  | methodNotAllowed
  deriving DecidableEq

namespace Status

/-- The number that stands for a status. -/
def code : Status → Nat
  | ok => 200
  | badRequest => 400
  | notFound => 404
  | methodNotAllowed => 405

def reason : Status → String
  | ok => "OK"
  | badRequest => "Bad Request"
  | notFound => "Not Found"
  | methodNotAllowed => "Method Not Allowed"

end Status

/-- What goes back on a connection: how the request was met, and a value. -/
structure Response where
  status : Status
  value : Json

namespace Response

/-- The octets of the value. -/
def body (r : Response) : Bytes := r.value.encode

def statusLine (r : Response) : String := "HTTP/1.1 " ++ toString r.status.code ++ " " ++ r.status.reason

/-- The lines of the head after the status line, in their order. -/
def headers (r : Response) : List (String × String) :=
  [("Content-Type", "application/json"), ("Content-Length", toString r.body.length), ("Connection", "close")]

/-- A line of the head, as it stands there. -/
def headerLine (header : String × String) : String := header.1 ++ ": " ++ header.2

/-- The head, with the blank line that ends it. -/
def head (r : Response) : String :=
  String.join ((r.statusLine :: r.headers.map headerLine).map (· ++ "\r\n")) ++ "\r\n"

/-- All octets of a response. -/
def encode (r : Response) : Bytes := Text.utf8 r.head ++ r.body

end Response

end FrameMerge.Control
