import Rmbtd.Config.Constants
import Rmbtd.Net.IpAddr

/-!
# Configuration

The secret keys and the runtime configuration of `config/mod.rs`.
-/

namespace Rmbtd

/-- A secret shared with a control server; the label is printed in logs. -/
structure SecretKey where
  key : Text
  label : Text
deriving DecidableEq

inductive LevelFilter
  | off
  | error
  | warn
  | info
  | debug
  | trace
deriving DecidableEq

structure Config where
  certPath : Option Text
  keyPath : Option Text
  tls13Only : Bool
  hsts : Bool
  numWorkers : Nat
  secretKeyPath : Text
  checkToken : Bool
  v2Only : Bool
  logLevel : LevelFilter
  syslogTarget : Option SocketAddr
  logFullIp : Bool
deriving DecidableEq

def Config.default : Config where
  certPath := none
  keyPath := none
  tls13Only := false
  hsts := false
  numWorkers := 200
  secretKeyPath := "secret.key"
  checkToken := true
  v2Only := false
  logLevel := .off
  syslogTarget := none
  logFullIp := false

end Rmbtd
