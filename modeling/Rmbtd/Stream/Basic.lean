import Rmbtd.Config.Constants
import Rmbtd.Library.Effect
import Rmbtd.Library.Utf8
import Rmbtd.Net.IpAddr

/-!
# Streams

The two kinds of connection behind the protocol handlers, as in `stream/mod.rs`. A raw connection
is the bytes the client will send and the error or end of file after them; a WebSocket is the
messages `tungstenite` will return and the error after them. The operations fail as the transport
does, at any byte or message.
-/

namespace Rmbtd

/-- The kinds of `std::io::ErrorKind` the server distinguishes. -/
inductive ErrorKind
  | unexpectedEof
  | invalidData
  | connectionReset
  | connectionAborted
  | brokenPipe
  | permissionDenied
  | wouldBlock
  | other
deriving DecidableEq

structure IoError where
  kind : ErrorKind
  message : Text
deriving DecidableEq

/-- `tungstenite::Message`; the payload of control frames is not looked at. -/
inductive Message
  | text (t : Text)
  | binary (b : Bytes)
  | ping
  | pong
  | frame
  | close
deriving DecidableEq

/-- `tungstenite::Error`: an error of the transport, or any other one with its text. -/
inductive WsError
  | io (e : IoError)
  | protocol (message : Text)
deriving DecidableEq

/-- What the handlers ask of a connection. -/
class LineStream (σ : Type) where
  readLine : EStateM IoError σ Text
  readExact : Nat → EStateM IoError σ Bytes
  writeAll : Bytes → EStateM IoError σ Unit
  peerAddr : σ → Option SocketAddr

/-! ## Raw connections -/

/-- A plain or TLS connection. A fault of a write says how many bytes went out before it. -/
structure RawConn where
  input : Bytes
  inputEnd : Option IoError
  output : Bytes
  faults : List (Option (Nat × IoError))
  peer : Option SocketAddr
deriving DecidableEq

namespace RawConn

def newline : UInt8 := 10

def carriageReturn : UInt8 := 13

/-- `read_until(b'\n')` on at most `limit` bytes: the bytes read and the rest. -/
def readUntil : Nat → Bytes → Bytes × Bytes
  | 0, bs => ([],bs)
  | _+1, [] => ([],[])
  | n+1, b::bs =>
    if b = newline then ([b],bs)
    else
      let (line,rest) := readUntil n bs
      (b::line,rest)

def popLast (c : UInt8) (buf : Bytes) : Bytes := if buf.getLast? = some c then buf.dropLast else buf

/-- The error after the input, if reading the line ran into it. -/
def lineFault (conn : RawConn) (line : Bytes) : Option IoError :=
  if line.length = maxLineLength + 1 ∨ line.getLast? = some newline then none else conn.inputEnd

def readLine : EStateM IoError RawConn Text := fun conn =>
  let (line,rest) := readUntil (maxLineLength + 1) conn.input
  let next := { conn with input := rest }
  match lineFault conn line with
  | some e => .error e next
  | none =>
    if line = [] then .error ⟨.unexpectedEof,"connection closed"⟩ next
    else if maxLineLength < line.length then .error ⟨.invalidData,"line too long"⟩ next
    else match fromUtf8 (popLast carriageReturn (popLast newline line)) with
      | some text => .ok text next
      | none => .error ⟨.invalidData,"invalid UTF-8 in line"⟩ next

def readExact (n : Nat) : EStateM IoError RawConn Bytes := fun conn =>
  let next := { conn with input := conn.input.drop n }
  if n ≤ conn.input.length then .ok (conn.input.take n) next
  else match conn.inputEnd with
    | some e => .error e next
    | none => .error ⟨.unexpectedEof,"failed to fill whole buffer"⟩ next

def writeAll (data : Bytes) : EStateM IoError RawConn Unit := fun conn =>
  match conn.faults with
  | some (n,e)::faults => .error e { conn with output := conn.output ++ data.take n, faults := faults }
  | faults => .ok () { conn with output := conn.output ++ data, faults := faults.tail }

instance : LineStream RawConn where
  readLine := readLine
  readExact := readExact
  writeAll := writeAll
  peerAddr conn := conn.peer

end RawConn

/-! ## WebSockets -/

/-- A WebSocket. A fault of a send says whether the message went out before it. -/
structure WebSocket where
  incoming : List Message
  incomingEnd : WsError
  sent : List Message
  faults : List (Option (Bool × WsError))
  peer : Option SocketAddr
deriving DecidableEq

namespace WebSocket

def payload : Message → Option Bytes
  | .text t => some (utf8 t)
  | .binary b => some b
  | _ => none

def wsClose : IoError := ⟨.connectionReset,"ws close"⟩

/-- An error of `ws.read()`: those of the transport keep their kind. -/
def readError : WsError → IoError
  | .io e => e
  | .protocol message => ⟨.other,message⟩

/-- An error of `ws.send()` or `ws.flush()`: none keeps its kind. -/
def writeError : WsError → IoError
  | .io e => ⟨.other,"IO error: ".toList ++ e.message⟩
  | .protocol message => ⟨.other,message⟩

/-- The line in a data message. A text message loses all line ends, a binary one a single one. -/
def lineOf : Message → Option Text
  | .text t => some ((t.rdropWhile (· = '\n')).rdropWhile (· = '\r'))
  | .binary b =>
    let s := fromUtf8Lossy b
    let s := if s.getLast? = some '\n' then s.dropLast else s
    some (if s.getLast? = some '\r' then s.dropLast else s)
  | _ => none

/-- Skip control frames up to the first message that is a line. -/
def nextLine (end_ : WsError) : List Message → Except IoError Text × List Message
  | [] => (.error (readError end_),[])
  | .close::rest => (.error wsClose,rest)
  | m::rest => match lineOf m with
    | some line => (.ok line,rest)
    | none => nextLine end_ rest

def readLine : EStateM IoError WebSocket Text := fun ws =>
  match nextLine ws.incomingEnd ws.incoming with
  | (.ok line,rest) => .ok line { ws with incoming := rest }
  | (.error e,rest) => .error e { ws with incoming := rest }

/-- Fill the `missing` bytes of a buffer. What a message holds beyond them is not kept. -/
def fill (end_ : WsError) : Nat → List Message → Except IoError Bytes × List Message
  | 0, messages => (.ok [],messages)
  | _+1, [] => (.error (readError end_),[])
  | _+1, .close::rest => (.error wsClose,rest)
  | missing+1, m::rest => match payload m with
    | some b =>
      let n := min b.length (missing+1)
      let (filled,rest) := fill end_ (missing + 1 - n) rest
      (filled.map (b.take n ++ ·),rest)
    | none => fill end_ (missing+1) rest

def readExact (n : Nat) : EStateM IoError WebSocket Bytes := fun ws =>
  match fill ws.incomingEnd n ws.incoming with
  | (.ok b,rest) => .ok b { ws with incoming := rest }
  | (.error e,rest) => .error e { ws with incoming := rest }

/-- Binary framing for chunk data and text framing for short protocol lines. -/
def framed (data : Bytes) : Message :=
  if data.length < 2 ∨ defaultChunkSize - 3 < data.length then .binary data
  else .text (fromUtf8Lossy data)

def writeAll (data : Bytes) : EStateM IoError WebSocket Unit := fun ws =>
  match ws.faults with
  | some (delivered,e)::faults => .error (writeError e)
      { ws with sent := if delivered then ws.sent ++ [framed data] else ws.sent, faults := faults }
  | faults => .ok () { ws with sent := ws.sent ++ [framed data], faults := faults.tail }

instance : LineStream WebSocket where
  readLine := readLine
  readExact := readExact
  writeAll := writeAll
  peerAddr ws := ws.peer

end WebSocket

/-! ## Streams -/

inductive Stream
  | raw (conn : RawConn)
  | webSocket (ws : WebSocket)
deriving DecidableEq

namespace Stream

def lift {α : Type} (onRaw : EStateM IoError RawConn α) (onWs : EStateM IoError WebSocket α) :
    EStateM IoError Stream α
  | .raw conn => match onRaw conn with
    | .ok a conn => .ok a (.raw conn)
    | .error e conn => .error e (.raw conn)
  | .webSocket ws => match onWs ws with
    | .ok a ws => .ok a (.webSocket ws)
    | .error e ws => .error e (.webSocket ws)

def peerAddr : Stream → Option SocketAddr
  | .raw conn => conn.peer
  | .webSocket ws => ws.peer

instance : LineStream Stream where
  readLine := lift LineStream.readLine LineStream.readLine
  readExact n := lift (LineStream.readExact n) (LineStream.readExact n)
  writeAll data := lift (LineStream.writeAll data) (LineStream.writeAll data)
  peerAddr := peerAddr

/-! ### The peer address -/

open Effect

private theorem keeps_lift {α : Type} {onRaw : EStateM IoError RawConn α}
    {onWs : EStateM IoError WebSocket α} (hraw : ∀ conn, (final (onRaw conn)).peer = conn.peer)
    (hws : ∀ ws, (final (onWs ws)).peer = ws.peer) (addr : Option SocketAddr) :
    Keeps (fun s => LineStream.peerAddr s = addr) (lift onRaw onWs) := by
  intro s hs
  cases s with
  | raw conn =>
    have h := hraw conn
    simp only [lift]
    cases hr : onRaw conn with
    | ok a conn' => rw [hr] at h; exact h.trans hs
    | error e conn' => rw [hr] at h; exact h.trans hs
  | webSocket ws =>
    have h := hws ws
    simp only [lift]
    cases hr : onWs ws with
    | ok a ws' => rw [hr] at h; exact h.trans hs
    | error e ws' => rw [hr] at h; exact h.trans hs

theorem keeps_peerAddr_readLine (addr : Option SocketAddr) :
    Keeps (fun s : Stream => LineStream.peerAddr s = addr) LineStream.readLine := by
  apply keeps_lift
  · intro conn
    change (final (RawConn.readLine conn)).peer = conn.peer
    unfold RawConn.readLine
    dsimp only
    repeat' split
    all_goals rfl
  · intro ws
    change (final (WebSocket.readLine ws)).peer = ws.peer
    unfold WebSocket.readLine
    split
    all_goals rfl

theorem keeps_peerAddr_readExact (addr : Option SocketAddr) (n : Nat) :
    Keeps (fun s : Stream => LineStream.peerAddr s = addr) (LineStream.readExact n) := by
  apply keeps_lift
  · intro conn
    change (final (RawConn.readExact n conn)).peer = conn.peer
    unfold RawConn.readExact
    dsimp only
    repeat' split
    all_goals rfl
  · intro ws
    change (final (WebSocket.readExact n ws)).peer = ws.peer
    unfold WebSocket.readExact
    split
    all_goals rfl

theorem keeps_peerAddr_writeAll (addr : Option SocketAddr) (data : Bytes) :
    Keeps (fun s : Stream => LineStream.peerAddr s = addr) (LineStream.writeAll data) := by
  apply keeps_lift
  · intro conn
    change (final (RawConn.writeAll data conn)).peer = conn.peer
    unfold RawConn.writeAll
    split
    all_goals rfl
  · intro ws
    change (final (WebSocket.writeAll data ws)).peer = ws.peer
    unfold WebSocket.writeAll
    split
    all_goals rfl

end Stream

end Rmbtd
