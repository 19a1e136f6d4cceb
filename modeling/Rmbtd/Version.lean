import Rmbtd.IpCheck.OnTransport

/-!
# Answering `/version`

`version.rs`. The version and the branch are fixed at build time.
-/

namespace Rmbtd

namespace Version

open Session HttpTransport

/-- `v<version>(<branch>)`, without a known branch just `v<version>`. -/
def version (http : HttpEnv) : Text :=
  if http.branch = [] then "v".toList ++ http.env.version
  else "v".toList ++ http.env.version ++ "(".toList ++ http.branch ++ ")".toList

def body (http : HttpEnv) : Text := "\x7b\"version\":\"".toList ++ version http ++ "\"\x7d".toList

def isOrigin (line : Text) : Bool :=
  (splitOnce ":" line).any fun field => toAsciiLowercase (trim field.1) = "origin"

/-- What the method decides on: the status, the header lines for it and the body. -/
def reply (http : HttpEnv) (method : Text) : Text × Text × Text :=
  if method = "GET" then ("200 OK","Content-Type: application/json\r\n",body http)
  else ("405 Method Not Allowed","Allow: GET\r\n",[])

def render (addHsts origin : Bool) (status extra body : Text) : Text :=
  "HTTP/1.1 ".toList ++ status ++ "\r\n".toList ++
    "Connection: close\r\n".toList ++ hstsHeader addHsts ++ corsHeader origin ++ extra ++
    "Content-Length: ".toList ++ natText (byteLen body) ++ "\r\n".toList ++ "\r\n".toList ++ body

/-- Answer one request to `/version`. -/
def handle {σ : Type} [HttpTransport σ] (http : HttpEnv) (head : Text) (addHsts : Bool) :
    Session σ Text := do
  let lines := splitAll "\r\n" head
  let method := (lines.headD []).takeWhile (· ≠ ' ')
  let (status,extra,body) := reply http method
  onStream (writeAll (utf8 (render addHsts (lines.tail.any isOrigin) status extra body)))
  onStream flush
  return method ++ " /version -> ".toList ++ status.take 3

end Version

end Rmbtd
