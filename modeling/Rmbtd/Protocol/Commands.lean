import Rmbtd.Session

/-!
# Commands

The command loop and the command handlers of `protocol/commands.rs`. The loops of the source are
bounded by fuel, and running out of it is a stop of its own.
-/

namespace Rmbtd

open Session

variable {σ : Type} [LineStream σ]

def acceptLine : Text := "ACCEPT GETCHUNKS GETTIME PUT PUTNORESULT PING QUIT\n"

def timeLine (ns : Nat) : Text := "TIME " ++ natText ns ++ "\n"

def reportLine (ns : Nat) (bytes : UInt64) : Text :=
  "TIME " ++ natText ns ++ " BYTES " ++ natText bytes.toNat ++ "\n"

def parseChunkSize (s : Text) (max : Nat) : Option Nat :=
  (parseUnsigned (2^64) s).filter fun n => minChunkSize ≤ n ∧ n ≤ max

/-- A `u32` argument from 1 to `max`. -/
def parseBounded (s : Text) (max : Nat) : Option Nat :=
  (parseUnsigned (2^32) s).filter fun n => 0 < n ∧ n ≤ max

/-- Apply the optional chunk-size override and go on, or answer `ERR`. -/
def withChunkSize (argChunk : Text) (handle : Session σ Unit) : Session σ Unit :=
  if argChunk = [] then handle
  else match parseChunkSize argChunk maxChunkSize with
    | some n => do
      setChunkSize n
      handle
    | none => writeLine "ERR\n"

/-- The slice `RANDOM_CHUNK[..chunk_size]`. -/
def downloadBuf (randomChunk : RandomChunk) : Session σ Bytes := do
  let n ← chunkSize
  if n ≤ randomChunk.val.length then return randomChunk.val.take n else throw .panic

def setLast (buf : Bytes) (terminal : Bool) : Session σ Bytes :=
  if buf = [] then throw .panic
  else return buf.dropLast ++ [if terminal then 0xFF else 0x00]

/-- The end of a download: wait for `OK` and report the time since `start`. -/
def acknowledge (start : Nat) : Session σ Unit := do
  let ack ← readLine
  if trim ack ≠ "OK" then writeLine "ERR\n"
  else do
    let total ← elapsed start
    writeLine (timeLine total)

/-! ## GETTIME -/

/-- Send chunks until `maxNs` have elapsed; returns the bytes sent. -/
def sendFor (buf : Bytes) (start maxNs : Nat) : Nat → UInt64 → Session σ UInt64
  | 0, _ => throw .outOfFuel
  | fuel+1, sent => do
    let ns ← elapsed start
    let chunk ← setLast buf (maxNs ≤ ns)
    writeChunk chunk
    let n ← chunkSize
    if maxNs ≤ ns then return sent + UInt64.ofNat n
    else sendFor buf start maxNs fuel (sent + UInt64.ofNat n)

def handleGettime (env : Env) (argSecs argChunk : Text) (fuel : Nat) : Session σ Unit :=
  withChunkSize argChunk (match parseBounded argSecs maxSeconds with
    | none => writeLine "ERR\n"
    | some seconds => do
      let start ← instant
      let buf ← downloadBuf env.randomChunk
      let sent ← sendFor buf start (seconds * 1000000000) fuel 0
      let ns ← elapsed start
      updateStats (.addDownload sent ns)
      acknowledge start)

/-! ## GETCHUNKS -/

def sendChunks (buf : Bytes) : Nat → Session σ Unit
  | 0 => pure ()
  | left+1 => do
    let chunk ← setLast buf (left = 0)
    writeChunk chunk
    sendChunks buf left

def handleGetchunks (env : Env) (argCount argChunk : Text) : Session σ Unit :=
  withChunkSize argChunk (match parseBounded argCount maxChunks with
    | none => writeLine "ERR\n"
    | some count => do
      let start ← instant
      let buf ← downloadBuf env.randomChunk
      sendChunks buf count
      let n ← chunkSize
      let ns ← elapsed start
      updateStats (.addDownload (UInt64.ofNat count * UInt64.ofNat n) ns)
      acknowledge start)

/-! ## PUT and PUTNORESULT -/

/-- Report the upload so far, at most every millisecond; returns the time of the last report. -/
def report (start : Nat) (total : UInt64) (lastReport : Int) : Session σ Int := do
  let ns ← elapsed start
  if lastReport < 0 ∨ 1000000 ≤ (ns : Int) - lastReport then do
    writeLine (reportLine ns total)
    return ns
  else return lastReport

/-- Receive chunks up to the one that ends in `0xFF`; returns the bytes received. -/
def receiveChunks (start : Nat) (sendIntermediate : Bool) :
    Nat → UInt64 → Int → Session σ UInt64
  | 0, _, _ => throw .outOfFuel
  | fuel+1, total, lastReport => do
    let n ← chunkSize
    let buf ← readExact n
    let total := total + UInt64.ofNat n
    match buf[n-1]? with
    | none => throw .panic
    | some lastByte => do
      let lastReport ← if sendIntermediate then report start total lastReport else pure lastReport
      if lastByte = 0xFF then return total
      else receiveChunks start sendIntermediate fuel total lastReport

def handlePut (argChunk : Text) (sendIntermediate : Bool) (fuel : Nat) : Session σ Unit :=
  withChunkSize argChunk do
    writeLine "OK\n"
    let start ← instant
    let total ← receiveChunks start sendIntermediate fuel 0 (-2^127)
    let ns ← elapsed start
    updateStats (.addUpload total ns)
    writeLine (timeLine ns)

/-! ## PING -/

def handlePing : Session σ Unit := do
  let start ← instant
  writeLine "PONG\n"
  let ack ← readLine
  if trim ack ≠ "OK" then writeLine "ERR\n"
  else do
    let ns ← elapsed start
    updateStats (.addPing ns)
    writeLine (timeLine ns)

/-! ## The command loop -/

/-- The handler of a test command, if the line has one. -/
def handler (env : Env) (fuel : Nat) (cmd arg1 arg2 : Text) : Option (Session σ Unit) :=
  if cmd = "GETTIME" then some (handleGettime env arg1 arg2 fuel)
  else if cmd = "GETCHUNKS" then some (handleGetchunks env arg1 arg2)
  else if cmd = "PUT" then some (handlePut arg1 true fuel)
  else if cmd = "PUTNORESULT" then some (handlePut arg1 false fuel)
  else if cmd = "PING" then some handlePing
  else none

/-- The dispatch loop; it ends when the client quits. -/
def commandLoop (env : Env) (connId : Nat) (uuid : Text) : Nat → Session σ Unit
  | 0 => throw .outOfFuel
  | fuel+1 => do
    writeLine acceptLine
    let line ← readLine
    let line := trim line
    log .debug (connTag connId ++ "command: ") (some line)
    let n ← chunkSize
    let s ← stats
    emit (.command line n s)
    let parts := splitn 3 " " line
    let cmd := parts.getD 0 []
    match handler env fuel cmd (trim (parts.getD 1 [])) (trim (parts.getD 2 [])) with
    | some handle => do
      updateStats .countCommand
      handle
      commandLoop env connId uuid fuel
    | none =>
      if cmd = "QUIT" then do
        writeLine "BYE\n"
        log .info (connTag connId ++ "QUIT received; uuid=" ++ uuid)
      else do
        log .error (connTag connId ++ "unknown command: ") (some cmd)
        writeLine "ERR\n"
        commandLoop env connId uuid fuel

/-- Main command dispatch, after the greeting succeeded. -/
def runCommands (env : Env) (connId : Nat) (uuid : Text) (fuel : Nat) : Session σ Unit := do
  emit .commandsStarted
  setChunkSize defaultChunkSize
  commandLoop env connId uuid fuel

end Rmbtd
