import Rmbtd.Protocol.Commands
import Rmbtd.Protocol.Greeting

/-!
# Connections

The part of `handle_connection` that runs once the connection is upgraded to a stream: the
greeting, the command loop and how the session ended.
-/

namespace Rmbtd

open Session

variable {σ : Type} [LineStream σ]

inductive EndReason
  | authFailed
  | quit
  | disconnect
  | error
deriving DecidableEq

/-- How the session ended when the command loop failed. -/
def endReason (e : IoError) : EndReason :=
  match e.kind with
  | .connectionAborted => .disconnect
  | .connectionReset => .disconnect
  | .unexpectedEof => .disconnect
  | .brokenPipe => .disconnect
  | _ => .error

/-- Catch the I/O errors of a phase, as a `match` on its result does. -/
def attempt {α : Type} (m : Session σ α) : Session σ (Except IoError α) := fun w =>
  match m w with
  | .ok a w => .ok (.ok a) w
  | .error (.io e) w => .ok (.error e) w
  | .error stop w => .error stop w

def handleStream (env : Env) (connId : Nat) (config : Config) (keys : List SecretKey) (sink : Sink)
    (fuel : Nat) : Session σ EndReason := do
  match ← attempt (runGreeting env connId config keys sink fuel) with
  | .error e => do
    log .info (connTag connId ++ "greeting failed: " ++ e.message)
    return .authFailed
  | .ok greeting => do
    match ← attempt (runCommands env connId greeting.uuid fuel) with
    | .ok () => return .quit
    | .error e => do
      if endReason e = .error then
        log .debug (connTag connId ++ "command loop ended: " ++ e.message)
      return endReason e

end Rmbtd
