import Rmbtd.Library.Text

/-!
# Connection events

The accounting of one connection and the content of the `auth` event, as in `events.rs`.
Durations are nanoseconds; a `u128` holds every duration.
-/

namespace Rmbtd

/-- Server-measured accounting for one connection, populated by the command handlers. -/
structure ConnStats where
  downloadBytes : UInt64
  downloadNs : Nat
  uploadBytes : UInt64
  uploadNs : Nat
  pingCount : UInt32
  pingMinNs : Nat
  pingMaxNs : Nat
  commands : UInt32
deriving DecidableEq

namespace ConnStats

def new : ConnStats where
  downloadBytes := 0
  downloadNs := 0
  uploadBytes := 0
  uploadNs := 0
  pingCount := 0
  pingMinNs := 2^128 - 1
  pingMaxNs := 0
  commands := 0

def addDownload (bytes : UInt64) (ns : Nat) (s : ConnStats) : ConnStats :=
  { s with downloadBytes := s.downloadBytes + bytes, downloadNs := s.downloadNs + ns }

def addUpload (bytes : UInt64) (ns : Nat) (s : ConnStats) : ConnStats :=
  { s with uploadBytes := s.uploadBytes + bytes, uploadNs := s.uploadNs + ns }

def addPing (ns : Nat) (s : ConnStats) : ConnStats :=
  { s with
    pingCount := s.pingCount + 1
    pingMinNs := if ns < s.pingMinNs then ns else s.pingMinNs
    pingMaxNs := if s.pingMaxNs < ns then ns else s.pingMaxNs }

def countCommand (s : ConnStats) : ConnStats := { s with commands := s.commands + 1 }

end ConnStats

structure AuthEvent where
  connId : Nat
  client : Text
  uuid : Text
  tokenType : Text
  result : Text
  label : Option Text
  reason : Option Text
deriving DecidableEq

end Rmbtd
