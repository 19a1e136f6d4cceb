import Rmbtd.Library.Text
import Mathlib.Data.Vector.Basic

/-!
# Protocol constants

The constants of `config/constants.rs`. Those fixed at build time or filled at start-up, the
version and the random chunk, are parameters of the definitions that use them.
-/

namespace Rmbtd

def defaultTlsPort : Nat := 443

def defaultChunkSize : Nat := 4096

def minChunkSize : Nat := 4096

def maxChunkSize : Nat := 4194304

def maxChunks : Nat := 300000

def maxSeconds : Nat := 30

def maxLineLength : Nat := 1024

/-- How many seconds early a client may connect. -/
def maxAcceptEarly : Int64 := 20

/-- How many seconds late a client may still connect. -/
def maxAcceptLate : Int64 := 90

/-- The buffer downloads are served from. -/
abbrev RandomChunk := { buf : Bytes // buf.length = maxChunkSize }

/-- The greeting line of a build with the given version. -/
def greetingLine (version : Text) : Text := "RMBTv" ++ version ++ "\n"

end Rmbtd
