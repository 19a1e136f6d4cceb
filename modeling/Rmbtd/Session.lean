import Rmbtd.Events
import Rmbtd.Library.Effect
import Rmbtd.Protocol.Token
import Rmbtd.Stream.Basic

/-!
# Sessions

The state a protocol handler runs in and the operations it is built from. The clocks are the
readings still to be made. The trace records what the handlers do, in order; nothing reads it.
-/

namespace Rmbtd

/-- Why a handler stopped before its end. Only `io` is an outcome the code handles. -/
inductive Stop
  | io (e : IoError)
  | panic
  | outOfFuel
deriving DecidableEq

/-- What a session does. A write is recorded when it is attempted. -/
inductive Event
  | received (line : Text)
  | receivedChunk (bytes : Bytes)
  | sentLine (line : Text)
  | sentChunk (bytes : Bytes)
  | tokenChecked (token : Text) (sourceIp : Option IpAddr) (v2Only : Bool) (clock : ClockReadings)
      (result : TokenResult)
  | slept (secs : UInt64)
  | logged (record : LogRecord)
  | auth (event : AuthEvent)
  | commandsStarted
  | command (line : Text) (chunkSize : Nat) (stats : ConnStats)
deriving DecidableEq

def written (tr : List Event) : List Event :=
  tr.filter fun e => match e with
    | .sentLine _ => true
    | .sentChunk _ => true
    | _ => false

/-- The state of a session on a stream of type `σ`. -/
structure World (σ : Type) where
  stream : σ
  instants : Nat → Nat
  wall : Nat → Int64
  stats : ConnStats
  chunkSize : Nat
  trace : List Event

def World.start {σ : Type} (stream : σ) (instants : Nat → Nat) (wall : Nat → Int64) : World σ where
  stream := stream
  instants := instants
  wall := wall
  stats := .new
  chunkSize := defaultChunkSize
  trace := []

abbrev Session (σ : Type) := EStateM Stop (World σ)

/-- What is fixed for the whole server: the crates' primitives, the build's version and the buffer
downloads are served from. -/
structure Env where
  crypto : Crypto
  version : Text
  randomChunk : RandomChunk

namespace Session

variable {σ : Type}

def emit (e : Event) : Session σ Unit := modify fun w => { w with trace := w.trace ++ [e] }

def instant : Session σ Nat := fun w =>
  .ok (w.instants 0) { w with instants := fun i => w.instants (i+1) }

def elapsed (start : Nat) : Session σ Nat := do
  return (← instant) - start

/-- `now_secs` as often as one token validation makes it. -/
def validationClock : Session σ ClockReadings := fun w =>
  .ok ⟨w.wall 0,w.wall 1⟩ { w with wall := fun i => w.wall (i+2) }

def sleep (secs : UInt64) : Session σ Unit := emit (.slept secs)

def log (level : Level) (text : Text) (quoted : Option Text := none) : Session σ Unit :=
  emit (.logged ⟨level,text,quoted⟩)

def logAll : List LogRecord → Session σ Unit
  | [] => pure ()
  | record::records => do
    emit (.logged record)
    logAll records

def chunkSize : Session σ Nat := do
  return (← get).chunkSize

def setChunkSize (n : Nat) : Session σ Unit := modify fun w => { w with chunkSize := n }

def stats : Session σ ConnStats := do
  return (← get).stats

def updateStats (f : ConnStats → ConnStats) : Session σ Unit :=
  modify fun w => { w with stats := f w.stats }

def onStream {α : Type} (m : EStateM IoError σ α) : Session σ α := fun w =>
  match m w.stream with
  | .ok a s => .ok a { w with stream := s }
  | .error e s => .error (.io e) { w with stream := s }

variable [LineStream σ]

def readLine : Session σ Text := do
  let line ← onStream LineStream.readLine
  emit (.received line)
  return line

def readExact (n : Nat) : Session σ Bytes := do
  let bytes ← onStream (LineStream.readExact n)
  emit (.receivedChunk bytes)
  return bytes

def writeLine (line : Text) : Session σ Unit := do
  emit (.sentLine line)
  onStream (LineStream.writeAll (utf8 line))

def writeChunk (bytes : Bytes) : Session σ Unit := do
  emit (.sentChunk bytes)
  onStream (LineStream.writeAll bytes)

def peerAddr : Session σ (Option SocketAddr) := do
  return LineStream.peerAddr (← get).stream

/-! ## Single operations -/

open Effect

section
variable {w : World σ} {s : σ} {e : IoError}

omit [LineStream σ] in
theorem onStream_ok {α : Type} {m : EStateM IoError σ α} {a : α} (h : m w.stream = .ok a s) :
    onStream m w = .ok a { w with stream := s } := by
  unfold onStream
  rw [h]

omit [LineStream σ] in
theorem onStream_error {α : Type} {m : EStateM IoError σ α} (h : m w.stream = .error e s) :
    onStream m w = .error (.io e) { w with stream := s } := by
  unfold onStream
  rw [h]

theorem readLine_ok {line : Text} (h : LineStream.readLine w.stream = .ok line s) :
    readLine w = .ok line { w with stream := s, trace := w.trace ++ [.received line] } := by
  unfold readLine
  rw [bind_ok (onStream_ok h)]
  rfl

theorem readLine_error (h : LineStream.readLine w.stream = .error e s) :
    readLine w = .error (.io e) { w with stream := s } :=
  bind_error (onStream_error h)

theorem readExact_ok {n : Nat} {bytes : Bytes} (h : LineStream.readExact n w.stream = .ok bytes s) :
    readExact n w = .ok bytes { w with stream := s, trace := w.trace ++ [.receivedChunk bytes] } := by
  unfold readExact
  rw [bind_ok (onStream_ok h)]
  rfl

theorem readExact_error {n : Nat} (h : LineStream.readExact n w.stream = .error e s) :
    readExact n w = .error (.io e) { w with stream := s } :=
  bind_error (onStream_error h)

theorem writeLine_ok {line : Text} (h : LineStream.writeAll (utf8 line) w.stream = .ok () s) :
    writeLine line w = .ok () { w with stream := s, trace := w.trace ++ [.sentLine line] } :=
  onStream_ok h

theorem writeChunk_ok {bytes : Bytes} (h : LineStream.writeAll bytes w.stream = .ok () s) :
    writeChunk bytes w = .ok () { w with stream := s, trace := w.trace ++ [.sentChunk bytes] } :=
  onStream_ok h

end

end Session

end Rmbtd
