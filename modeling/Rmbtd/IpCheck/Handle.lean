import Rmbtd.IpCheck.Response
import Rmbtd.Stream.Transport

/-!
# Answering `/ip`

`handle` of `ip_check.rs`: the header loop, the branches for the methods and the response, on any
transport that has the operations the HTTP phase needs.
-/

namespace Rmbtd

open Session

/-- What the HTTP phase takes from other crates and from the build. -/
structure HttpEnv where
  env : Env
  fromSlice : JsonParser
  /-- The object with one error as `serde_json` prints it. -/
  errorBody : Text → Text
  sha1 : Bytes → Bytes
  branch : Text
  /-- The messages `tungstenite` reads from a connection. -/
  fromRawSocket : RawConn → WebSocket

def maxBody : Nat := 8192

/-- How much of an oversized body is discarded before the answer. -/
def maxDrain : Nat := 64 * 1024

def splitAll (pat s : Text) : List Text := splitn (s.length + 1) pat s

def toAsciiLowercase (s : Text) : Text := s.map Char.toLower

/-- What is taken from a request head. -/
structure RequestHead where
  method : Text
  contentLength : Nat
  contentType : Text
  chunked : Bool
  origin : Bool
  requestHeaders : Text
deriving DecidableEq

def badContentLength : IoError := ⟨.invalidData,"bad Content-Length"⟩

/-- One turn of the header loop. -/
def RequestHead.addLine (r : RequestHead) (line : Text) : Except IoError RequestHead :=
  match splitOnce ":" line with
  | none => .ok r
  | some (name,value) =>
    let name := toAsciiLowercase (trim name)
    let value := trim value
    if name = "content-length" then match parseUnsigned (2^64) value with
      | some n => .ok { r with contentLength := n }
      | none => .error badContentLength
    else if name = "content-type" then .ok { r with contentType := value }
    else if name = "transfer-encoding" then
      .ok { r with chunked := (splitOnce "chunked" (toAsciiLowercase value)).isSome }
    else if name = "origin" then .ok { r with origin := true }
    else if name = "access-control-request-headers" then .ok { r with requestHeaders := value }
    else .ok r

def parseHead (head : Text) : Except IoError RequestHead :=
  let lines := splitAll "\r\n" head
  lines.tail.foldlM RequestHead.addLine ⟨(lines.headD []).takeWhile (· ≠ ' '),0,[],false,false,[]⟩

/-- `application/json`, with or without parameters such as charset. -/
def isJson (contentType : Text) : Bool :=
  toAsciiLowercase (trim (contentType.takeWhile (· ≠ ';'))) = "application/json"

/-- The parts of a response the method decides on, with the detail for the log line. -/
structure IpReply where
  status : Text
  extra : Text
  body : Text
  note : Option Text
deriving DecidableEq

def truncatedBody : IoError := ⟨.unexpectedEof,"request body truncated"⟩

def noPeerAddress : IoError := ⟨.other,"peer address unavailable"⟩

def optionsReply (head : RequestHead) : IpReply where
  status := "200 OK"
  extra := "Access-Control-Allow-Methods: POST, OPTIONS\r\n".toList ++
    "Access-Control-Allow-Headers: ".toList ++ head.requestHeaders ++ "\r\n".toList ++
    "Access-Control-Max-Age: 1800\r\n".toList
  body := []
  note := none

def hstsHeader (addHsts : Bool) : Text :=
  if addHsts then "Strict-Transport-Security: max-age=31536000\r\n" else []

def corsHeader (origin : Bool) : Text := if origin then "Access-Control-Allow-Origin: *\r\n" else []

def IpReply.render (addHsts origin : Bool) (r : IpReply) : Text :=
  "HTTP/1.1 ".toList ++ r.status ++ "\r\n".toList ++
    "Connection: close\r\n".toList ++ hstsHeader addHsts ++ corsHeader origin ++ r.extra ++
    (if r.body = [] then [] else "Content-Type: application/json\r\n".toList) ++
    "Cache-Control: no-cache, no-store, max-age=0, must-revalidate\r\n".toList ++
    "Content-Length: ".toList ++ natText (byteLen r.body) ++ "\r\n".toList ++ "\r\n".toList ++ r.body

def IpReply.summary (method : Text) (r : IpReply) : Text :=
  let code := r.status.take 3
  match r.note with
  | some note => method ++ " /ip -> ".toList ++ code ++ " (".toList ++ note ++ ")".toList
  | none => method ++ " /ip -> ".toList ++ code

/-- What the HTTP phase asks of a transport. -/
class HttpTransport (σ : Type) where
  readExact : Nat → EStateM IoError σ Bytes
  readUpTo : Nat → EStateM IoError σ Bytes
  writeAll : Bytes → EStateM IoError σ Unit
  flush : EStateM IoError σ Unit
  peerAddr : σ → Option SocketAddr

instance : HttpTransport RawConn where
  readExact := RawConn.readExact
  readUpTo := RawConn.readUpTo
  writeAll := RawConn.writeAll
  flush := RawConn.flush
  peerAddr := RawConn.peer

namespace HttpTransport

section
variable {σ : Type} [HttpTransport σ] (http : HttpEnv) (keys : List SecretKey) (connId : Nat)

omit [HttpTransport σ] in
/-- The answer to a request whose body was read. -/
def bodyReply (head : RequestHead) (body : Bytes) (peer : SocketAddr) : Session σ IpReply :=
  if ¬isJson head.contentType then
    return ⟨"415 Unsupported Media Type","Accept: application/json\r\n",
      http.errorBody "Content-Type must be application/json",none⟩
  else do
    let now ← nowSecs
    match ← logged (ipResponse http.env.crypto http.fromSlice body peer.ip keys connId now) with
    | .ok answer => return ⟨"200 OK",[],answer.json,some answer.note⟩
    | .error e => return ⟨e.status,[],http.errorBody e.message,none⟩

/-- The answer to a request with a body of the announced length. -/
def peerReply (head : RequestHead) (body : Bytes) : Session σ IpReply := do
  match peerAddr (← get).stream with
  | none => throw (.io noPeerAddress)
  | some peer => bodyReply http keys connId head body peer

theorem peerReply_none (head : RequestHead) (body : Bytes) {w : World σ}
    (h : peerAddr w.stream = none) :
    peerReply http keys connId head body w = .error (.io noPeerAddress) w := by
  have hget : (get : Session σ (World σ)) w = .ok w w := rfl
  unfold peerReply
  rw [Effect.bind_ok hget,h]
  rfl

theorem peerReply_some (head : RequestHead) (body : Bytes) {w : World σ} {peer : SocketAddr}
    (h : peerAddr w.stream = some peer) :
    peerReply http keys connId head body w = bodyReply http keys connId head body peer w := by
  have hget : (get : Session σ (World σ)) w = .ok w w := rfl
  unfold peerReply
  rw [Effect.bind_ok hget,h]

def postReply (head : RequestHead) : Session σ IpReply :=
  if head.chunked then
    return ⟨"411 Length Required",[],http.errorBody "Content-Length required",none⟩
  else if maxBody < head.contentLength then do
    let _ ← onStream (readUpTo (min head.contentLength maxDrain))
    return ⟨"413 Content Too Large",[],http.errorBody "request body too large",none⟩
  else do
    let body ← onStream (readUpTo head.contentLength)
    if body.length < head.contentLength then throw (.io truncatedBody)
    else peerReply http keys connId head body

def ipReply (head : RequestHead) : Session σ IpReply :=
  if head.method = "OPTIONS" then return optionsReply head
  else if head.method = "POST" then postReply http keys connId head
  else return ⟨"405 Method Not Allowed","Allow: POST, OPTIONS\r\n",[],none⟩

def send (head : RequestHead) (reply : IpReply) (addHsts : Bool) : Session σ Text := do
  onStream (writeAll (utf8 (reply.render addHsts head.origin)))
  onStream flush
  return reply.summary head.method

/-- Answer one request to `/ip`. -/
def handle (head : Text) (addHsts : Bool) : Session σ Text := do
  let head ← liftExcept (parseHead head)
  send head (← ipReply http keys connId head) addHsts

end

end HttpTransport

end Rmbtd
