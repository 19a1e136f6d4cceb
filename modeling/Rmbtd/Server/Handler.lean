import Rmbtd.Server.Anonymise
import Rmbtd.Server.Connection
import Rmbtd.Stream.Upgrade

/-!
# The connection handler

`handle_connection` of `server/mod.rs`, from its first record to its last. The connect and close
events of the sink hold nothing a record is made from and are left out.
-/

namespace Rmbtd

open Session

/-! ## Greeting and command loop -/

section
variable {σ : Type} [LineStream σ]

def serveStream (env : Env) (connId : Nat) (config : Config) (keys : List SecretKey) (sink : Sink)
    (fuel : Nat) : Session σ (EndReason × Option Greeting) := do
  match ← attempt (runGreeting env connId config keys sink fuel) with
  | .error e => do
    log .info (connTag connId ++ "greeting failed: " ++ e.message)
    return (.authFailed,none)
  | .ok greeting => do
    match ← attempt (runCommands env connId greeting.uuid fuel) with
    | .ok () => return (.quit,some greeting)
    | .error e => do
      if endReason e = .error then
        log .debug (connTag connId ++ "command loop ended: " ++ e.message)
      return (endReason e,some greeting)

theorem handleStream_eq (env : Env) (connId : Nat) (config : Config) (keys : List SecretKey)
    (sink : Sink) (fuel : Nat) :
    handleStream env connId config keys sink fuel =
      (do return (← serveStream env connId config keys sink fuel : EndReason × Option Greeting).1 :
        Session σ EndReason) := by
  funext w
  simp only [handleStream,serveStream,Effect.bind_apply]
  cases attempt (runGreeting env connId config keys sink fuel) w with
  | error e w => rfl
  | ok greeted w =>
    cases greeted with
    | error e => rfl
    | ok greeting =>
      simp only [Effect.bind_apply]
      cases attempt (runCommands env connId greeting.uuid fuel) w with
      | error e w => rfl
      | ok ended w =>
        cases ended with
        | ok _ => rfl
        | error e =>
          dsimp only
          split
          · rfl
          · rfl

end

/-! ## The connection -/

/-- Why a connection ended, as the close event has it. -/
inductive Finish
  | timeoutSetupFailed
  | tlsFailed
  | noTlsWorker
  | ipCheck
  | version
  | upgradeDisconnect
  | upgradeFailed
  | served (reason : EndReason)
deriving DecidableEq

def EndReason.toText : EndReason → Text
  | .authFailed => "auth_failed"
  | .quit => "quit"
  | .disconnect => "disconnect"
  | .error => "error"

def Finish.toText : Finish → Text
  | .timeoutSetupFailed => "timeout_setup_failed"
  | .tlsFailed => "tls_failed"
  | .noTlsWorker => "no_tls_worker"
  | .ipCheck => "ip_check"
  | .version => "version"
  | .upgradeDisconnect => "upgrade_disconnect"
  | .upgradeFailed => "upgrade_failed"
  | .served reason => reason.toText

/-- What the socket and the TLS library answer while the transport is made: the error of the
timeouts, and the error of the TLS session if the worker has a TLS configuration. -/
structure Setup where
  timeoutError : Option IoError
  tls : Option (Option IoError)

/-- Errors that mean the peer went away rather than a protocol error. -/
def isClientDisconnect (e : IoError) : Bool :=
  match e.kind with
  | .unexpectedEof => true
  | .connectionReset => true
  | .connectionAborted => true
  | .brokenPipe => true
  | _ => false

def clientLabel (config : Config) (addr : SocketAddr) : Text :=
  if config.logFullIp then addr.ip.toText else anonymiseAddr addr

/-- The stream an upgraded transport goes on as. -/
def Upgrade.stream (http : HttpEnv) : Upgrade → RawConn → Stream
  | .webSocket, conn => .webSocket (http.fromRawSocket conn)
  | _, conn => .raw conn

def Stream.kindName : Stream → Text
  | .raw _ => "raw"
  | .webSocket _ => "websocket"

/-- Run the HTTP phase on the transport of the connection. There is none under a WebSocket. -/
def onTransport (http : HttpEnv) (m : Session RawConn Upgrade) : Session Stream Upgrade := fun w =>
  match w.stream with
  | .raw conn => match m { w with stream := conn } with
    | .ok upgrade w => .ok upgrade { w with stream := upgrade.stream http w.stream }
    | .error e w => .error e { w with stream := .raw w.stream }
  | .webSocket _ => .error .panic w

section
variable (http : HttpEnv) (setup : Setup) (connId : Nat) (config : Config) (keys : List SecretKey)

/-- Set the timeouts and make the transport. The result is why the connection ends here. -/
def openTransport (isTls : Bool) : Session Stream (Option Finish) :=
  match setup.timeoutError with
  | some e => do
    log .error (connTag connId ++ "failed to set socket timeout: " ++ e.message)
    return some .timeoutSetupFailed
  | none =>
    if isTls then match setup.tls with
      | none => do
        log .error (connTag connId ++ "TLS connection on non-TLS worker")
        return some .noTlsWorker
      | some (some e) => do
        log .error (connTag connId ++ "TLS handshake failed: " ++ e.message)
        return some .tlsFailed
      | some none => return none
    else return none

/-- The HTTP phase and what follows it. -/
def serveTransport (isTls : Bool) (sink : Sink) (fuel : Nat) :
    Session Stream (Finish × Option Greeting) := do
  match ← attempt (onTransport http (detectAndUpgrade http keys connId (isTls && config.hsts))) with
  | .error e =>
    if isClientDisconnect e then do
      log .debug (connTag connId ++ "client disconnected before upgrade: " ++ e.message)
      return (.upgradeDisconnect,none)
    else do
      log .info (connTag connId ++ "upgrade failed: " ++ e.message)
      return (.upgradeFailed,none)
  | .ok (.ipCheck summary) => do
    log .info (connTag connId ++ "ip check " ++ summary)
    return (.ipCheck,none)
  | .ok (.version summary) => do
    log .info (connTag connId ++ "version " ++ summary)
    return (.version,none)
  | .ok _ => do
    log .debug (connTag connId ++ "upgraded to " ++ (← get).stream.kindName)
    let (reason,greeting) ← serveStream http.env connId config keys sink fuel
    return (.served reason,greeting)

/-- A session up to its end, with the greeting if it succeeded. -/
def runSession (isTls : Bool) (sink : Sink) (fuel : Nat) :
    Session Stream (Finish × Option Greeting) := do
  match ← openTransport setup connId isTls with
  | some finish => return (finish,none)
  | none => serveTransport http connId config keys isTls sink fuel

def logClosing (finish : Finish) (greeting : Option Greeting) : Session Stream Unit :=
  match greeting with
  | some g => log .info (connTag connId ++ "closing connection; uuid=" ++ g.uuid)
  | none =>
    log (if finish = .upgradeDisconnect then .debug else .info)
      (connTag connId ++ "closing connection (" ++ finish.toText ++ ")")

/-- Everything that is done with one accepted connection. -/
def handleConnection (addr : SocketAddr) (isTls sinkEnabled : Bool) (fuel : Nat) :
    Session Stream Finish := do
  let client := clientLabel config addr
  log .info (connTag connId ++ "connection from " ++ client)
  let (finish,greeting) ← runSession http setup connId config keys isTls ⟨sinkEnabled,client⟩ fuel
  logClosing connId finish greeting
  return finish

end

end Rmbtd
