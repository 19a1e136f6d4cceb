import Rmbtd.Session

/-!
# Greeting

The greeting and authentication phase of `protocol/greeting.rs`.
-/

namespace Rmbtd

open Session

variable {σ : Type} [LineStream σ]

structure Greeting where
  uuid : Text
  tokenType : Text
  label : Text
deriving DecidableEq

/-- Whether events are sent, and the client address they show. -/
structure Sink where
  enabled : Bool
  client : Text

def acceptTokenLine : Text := "ACCEPT TOKEN QUIT\n"

def chunkSizeLine : Text :=
  "CHUNKSIZE " ++ natText defaultChunkSize ++ " " ++ natText minChunkSize ++ " " ++
    natText maxChunkSize ++ "\n"

/-- A short machine-readable reason for a rejection. -/
def rejectReason : TokenResult → Text
  | .invalidHmac => "invalid_hmac"
  | .invalidIp => "invalid_ip"
  | .tooEarly _ => "too_early"
  | .tooLate _ => "too_late"
  | .parseError => "parse_error"
  | .v2Required => "v2_required"
  | .accepted _ _ => "accepted"

def quitBeforeToken : IoError := ⟨.connectionAborted,"client sent QUIT before TOKEN"⟩

def expectedToken : IoError := ⟨.invalidData,"expected TOKEN line"⟩

def tokenRejected : IoError := ⟨.permissionDenied,"token rejected"⟩

def readToken : Nat → Session σ Text
  | 0 => throw .outOfFuel
  | fuel+1 => do
    let line ← readLine
    if trim line = [] then readToken fuel else return line

/-- The value of a `TOKEN` line, or the end of the session. -/
def tokenValue (connId : Nat) (line : Text) : Session σ Text :=
  match stripPrefix "TOKEN " line with
  | some rest => return trim rest
  | none =>
    if "QUIT".toList.isPrefixOf (trimStart line) then do
      writeLine "BYE\n"
      throw (.io quitBeforeToken)
    else do
      log .error (connTag connId ++ "expected TOKEN, got: ") (some line)
      writeLine "ERR\n"
      throw (.io expectedToken)

def uuidOf (token : Text) : Text := token.takeWhile (· ≠ '_')

def tokenTypeOf (token : Text) : Text := if (splitOnce v2Marker token).isSome then "v2" else "v1"

def auth (sink : Sink) (connId : Nat) (token result : Text) (label reason : Option Text) :
    Session σ Unit :=
  if sink.enabled then
    emit (.auth ⟨connId,sink.client,uuidOf token,tokenTypeOf token,result,label,reason⟩)
  else pure ()

/-- Validate the token of the session at the current clock and with its peer address. -/
def checkToken (env : Env) (connId : Nat) (config : Config) (keys : List SecretKey) (token : Text) :
    Session σ TokenResult := do
  let peer ← peerAddr
  let sourceIp := peer.map SocketAddr.ip
  let clock ← validationClock
  let verdict := validateToken env.crypto token keys connId sourceIp config.v2Only clock
  logAll verdict.records
  emit (.tokenChecked token sourceIp config.v2Only clock verdict.val)
  return verdict.val

/-- Authenticate the token; returns the label of the key that validated it. -/
def authenticate (env : Env) (connId : Nat) (config : Config) (keys : List SecretKey) (sink : Sink)
    (token : Text) : Session σ Text := do
  if config.checkToken then do
    match ← checkToken env connId config keys token with
    | .accepted sleepSecs label => do
      log .info (connTag connId ++ "valid token; uuid=" ++ uuidOf token ++ " key='" ++ label ++ "'")
      auth sink connId token "accepted" (some label) none
      if 0 < sleepSecs then sleep sleepSecs else pure ()
      return label
    | rejected => do
      auth sink connId token "rejected" none (some (rejectReason rejected))
      writeLine "ERR\n"
      throw (.io tokenRejected)
  else do
    log .info (connTag connId ++ "token NOT CHECKED; uuid=" ++ uuidOf token)
    auth sink connId token "not_checked" none none
    return []

/-- Run the greeting phase up to and including the CHUNKSIZE line. -/
def runGreeting (env : Env) (connId : Nat) (config : Config) (keys : List SecretKey) (sink : Sink)
    (fuel : Nat) : Session σ Greeting := do
  writeLine (greetingLine env.version)
  writeLine acceptTokenLine
  let line ← readToken fuel
  let token ← tokenValue connId line
  let label ← authenticate env connId config keys sink token
  writeLine "OK\n"
  writeLine chunkSizeLine
  return ⟨uuidOf token,tokenTypeOf token,label⟩

end Rmbtd
