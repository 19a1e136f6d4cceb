import Rmbtd.Config.Parser
import Rmbtd.Library.Base64
import Rmbtd.Version

/-!
# HTTP upgrade

`stream/websocket_upgrade.rs`: the request head is read byte by byte, then the request is answered
or the connection upgraded.
-/

namespace Rmbtd

open Session HttpTransport

/-- Outcome of the HTTP phase. After an upgrade the transport goes on as an RMBT stream, raw or
through a WebSocket; an answered request comes with its summary for the log. -/
inductive Upgrade
  | raw
  | webSocket
  | ipCheck (summary : Text)
  | version (summary : Text)
deriving DecidableEq

/-- The blank line that ends the request headers, with the line end before it. -/
def headEnd : Bytes := [13,10,13,10]

/-- A head with more bytes than this is refused. -/
def maxHead : Nat := 8192

def requestTooLarge : IoError := ⟨.invalidData,"HTTP request too large"⟩

def expectedGet : IoError := ⟨.invalidData,"expected HTTP GET"⟩

def noUpgradeHeader : IoError :=
  ⟨.invalidData,"no recognized Upgrade header (need 'websocket' or 'rmbt')"⟩

def missingKey : IoError := ⟨.invalidData,"missing Sec-WebSocket-Key"⟩

def ipCheckMatches (target : Text) : Bool :=
  target = "/ip" || List.isPrefixOf "/ip?".toList target

def versionMatches (target : Text) : Bool :=
  target = "/version" || List.isPrefixOf "/version?".toList target

/-- The request target: what stands between the first two blanks. -/
def requestTarget (req : Text) : Text := (splitAll " " req).getD 1 []

def contains (pat s : Text) : Bool := (splitOnce pat s).isSome

section
variable {σ : Type} [HttpTransport σ]

/-- Read up to the blank line. `room` is what is left of `maxHead` for the bytes after the next. -/
def readHead : Nat → Bytes → EStateM IoError σ Bytes
  | room, buf => do
    let buf := buf ++ (← readExact 1)
    if headEnd.isSuffixOf buf then return buf
    else match room with
      | 0 => throw requestTooLarge
      | room+1 => readHead room buf

/-- `let _ = ...`: an error is dropped. -/
def ignored (m : EStateM IoError σ Unit) : Session σ Unit := fun w =>
  .ok () { w with stream := Effect.final (m w.stream) }

def webSocketGuid : Text := "258EAFA5-E914-47DA-95CA-C5AB0DC85B11"

def webSocketKey (request : Text) : Option Text :=
  (lines request).findSome? fun line =>
    if List.isPrefixOf "sec-websocket-key:".toList (toAsciiLowercase line) then
      some (trim (line.dropWhile (· ≠ ':')).tail)
    else none

variable (http : HttpEnv) (keys : List SecretKey) (connId : Nat)

/-- Complete the WebSocket opening handshake. -/
def webSocketHandshake (request : Text) (addHsts : Bool) : Session σ Upgrade :=
  match webSocketKey request with
  | none => throw (.io missingKey)
  | some key => do
    let accept := http.env.crypto.base64.encode (http.sha1 (utf8 (key ++ webSocketGuid)))
    let response := "HTTP/1.1 101 Switching Protocols\r\n".toList ++ "Connection: Upgrade\r\n".toList ++
      "Upgrade: websocket\r\n".toList ++ "Sec-WebSocket-Accept: ".toList ++ accept ++ "\r\n".toList ++
      hstsHeader addHsts ++ "\r\n".toList
    onStream (writeAll (utf8 response))
    onStream flush
    return .webSocket

/-- Plain RMBT: acknowledge the upgrade and go on without WebSocket framing. -/
def rawHandshake (addHsts : Bool) : Session σ Upgrade := do
  let response := "HTTP/1.1 101 Switching Protocols\r\n".toList ++ "Connection: Upgrade\r\n".toList ++
    "Upgrade: RMBT\r\n".toList ++ hstsHeader addHsts ++ "\r\n".toList
  onStream (writeAll (utf8 response))
  return .raw

def refuseMethod (req : Text) (addHsts : Bool) : Session σ Upgrade := do
  log .debug ("unexpected HTTP method; request:\n".toList ++ trimEnd req)
  let response := "HTTP/1.1 405 Method Not Allowed\r\n".toList ++ "Connection: close\r\n".toList ++
    hstsHeader addHsts ++ "Content-Length: 0\r\n".toList ++ "\r\n".toList
  ignored (writeAll (utf8 response))
  ignored flush
  throw (.io expectedGet)

/-- A browser or health-check request without an upgrade. -/
def requireUpgrade (req : Text) (addHsts : Bool) : Session σ Upgrade := do
  log .debug ("no recognized Upgrade header; request:\n".toList ++ trimEnd req)
  let body := "RMBT measurement server - ".toList ++ trim (greetingLine http.env.version)
  let response := "HTTP/1.1 426 Upgrade Required\r\n".toList ++ "Connection: close\r\n".toList ++
    "Upgrade: RMBT, websocket\r\n".toList ++ hstsHeader addHsts ++
    "Content-Type: text/plain\r\n".toList ++ "Content-Length: ".toList ++ natText (byteLen body) ++
    "\r\n".toList ++ "\r\n".toList ++ body
  ignored (writeAll (utf8 response))
  ignored flush
  throw (.io noUpgradeHeader)

/-- What is done with a request once its head is read. -/
def answer (req : Text) (addHsts : Bool) : Session σ Upgrade :=
  if ipCheckMatches (requestTarget req) then
    return .ipCheck (← HttpTransport.handle http keys connId req addHsts)
  else if versionMatches (requestTarget req) then
    return .version (← Version.handle http req addHsts)
  else if ¬List.isPrefixOf "GET ".toList req then refuseMethod req addHsts
  else
    let reqLower := toAsciiLowercase req
    if contains "upgrade: websocket" reqLower then webSocketHandshake http req addHsts
    else if contains "upgrade: rmbt" reqLower then rawHandshake addHsts
    else requireUpgrade http req addHsts

/-- Detect the upgrade and complete it. Closing the transport after an answer writes no data. -/
def detectAndUpgrade (addHsts : Bool) : Session σ Upgrade := do
  let buf ← onStream (readHead maxHead [])
  answer http keys connId (fromUtf8Lossy buf) addHsts

end

end Rmbtd
