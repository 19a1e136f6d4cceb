import Rmbtd.Config.Config
import Rmbtd.Library.Base64
import Rmbtd.Library.Utf8
import Rmbtd.Logger

/-!
# Token validation

The functions of `protocol/token.rs`. The HMACs and the base64 codec come from other crates and
are a parameter. The clock is read where the code reads it: a v2 token is checked against two
readings, one to reconstruct its start time and one for the accept window.
-/

namespace Rmbtd

/-- The primitives the code takes from the crates `hmac`, `sha1`, `sha2` and `base64`. -/
structure Crypto where
  hmacSha1 : Bytes → Bytes → Bytes
  hmacSha256 : Bytes → Bytes → Bytes
  hmacSha1_length : ∀ key msg, (hmacSha1 key msg).length = 20
  hmacSha256_length : ∀ key msg, (hmacSha256 key msg).length = 32
  base64 : Base64

inductive TokenResult
  | accepted (sleepSecs : UInt64) (label : Text)
  | invalidHmac
  | invalidIp
  | tooEarly (reason : Text)
  | tooLate (reason : Text)
  | parseError
  | v2Required
deriving DecidableEq

/-- The readings of `now_secs` during one validation, in the order they are made. -/
structure ClockReadings where
  reconstruct : Int64
  window : Int64
deriving DecidableEq

def ClockReadings.constant (now : Int64) : ClockReadings := ⟨now,now⟩

def v2Marker : Text := "#v2#"

/-- The base64 v2 part of a combined token, if the marker is present. -/
def extractV2 (raw : Text) : Option Text := (splitOnce v2Marker raw).map Prod.snd

/-! ## Shared helpers -/

/-- Map the 32-bit token time back to an absolute time near `now`. -/
def reconstructTime (timeU32 : UInt32) (now : Int64) : Int64 :=
  let period : Int64 := 4294967296
  let t := (now &&& ~~~0xFFFFFFFF) ||| timeU32.toUInt64.toInt64
  if t - now > period / 2 then t - period
  else if now - t > period / 2 then t + period
  else t

def bigEndian (bytes : Bytes) : Nat := bytes.foldl (fun n b => n * 256 + b.toNat) 0

def bigEndianBytes (n : UInt32) : Bytes :=
  [n.toNat / 2^24,n.toNat / 2^16 % 256,n.toNat / 2^8 % 256,n.toNat % 256].map UInt8.ofNat

/-- The source address as hashed into the v2 token. -/
def mappedIpv6 : IpAddr → Bytes
  | .v6 a => a.octets.toList
  | .v4 a =>
    let m := ((List.replicate 16 0).set 10 0xff).set 11 0xff
    m.take 12 ++ a.octets.toList

def hmacSha256Parts (cr : Crypto) (key : Bytes) (parts : List Bytes) : Bytes :=
  cr.hmacSha256 key parts.flatten

def hmacSha1B64 (cr : Crypto) (key msg : Bytes) : Text :=
  cr.base64.encode (cr.hmacSha1 key msg)

/-- The accept window. Returns how many seconds early the client is. -/
def windowCheck (startTime : Int64) (connId : Nat) (now : Int64) :
    Logged (Except TokenResult Int64) := do
  let secondsEarly := startTime - now
  let secondsLate := now - startTime
  if secondsEarly > maxAcceptEarly then do
    let reason : Text := "token not valid yet: client is " ++ intText secondsEarly.toInt ++
      "s early (max " ++ intText maxAcceptEarly.toInt ++ ")"
    Logged.log .error (connTag connId ++ "token rejected: " ++ reason)
    return .error (.tooEarly reason)
  else if secondsLate > maxAcceptLate then do
    let reason : Text := "token expired: client is " ++ intText secondsLate.toInt ++
      "s late (max " ++ intText maxAcceptLate.toInt ++ ")"
    Logged.log .error (connTag connId ++ "token rejected: " ++ reason)
    return .error (.tooLate reason)
  else return .ok secondsEarly

def timeWindow (startTime : Int64) (connId : Nat) (label : Text) (now : Int64) :
    Logged TokenResult := do
  match ← windowCheck startTime connId now with
  | .error rejected => return rejected
  | .ok secondsEarly =>
    if secondsEarly > 0 then do
      Logged.log .debug (connTag connId ++ "client is " ++ intText secondsEarly.toInt ++
        "s early; will sleep")
      return .accepted secondsEarly.toUInt64 label
    else return .accepted 0 label

/-! ## v1: UUID_TIMESTAMP_HMAC-SHA1 -/

/-- Parse a v1 token and find the key whose HMAC-SHA1 over `UUID_TIMESTAMP` matches. -/
def matchV1 (cr : Crypto) (rawToken : Text) (keys : List SecretKey) (connId : Nat) :
    Logged (Except TokenResult (Text × Int64 × SecretKey)) := do
  let parts := splitn 3 "_" rawToken
  match parts with
  | [uuid,tsStr,hmacB64] =>
    if byteLen uuid ≠ 36 ∨ tsStr = [] ∨ 12 < byteLen tsStr then do
      Logged.log .debug (connTag connId ++ "token parse error: malformed uuid or timestamp")
      return .error .parseError
    else match parseInt64 tsStr with
      | none => do
        Logged.log .debug (connTag connId ++ "token parse error: invalid timestamp")
        return .error .parseError
      | some startTime =>
        let message := uuid ++ "_" ++ tsStr
        match keys.find? fun k => hmacSha1B64 cr (utf8 k.key) (utf8 message) = hmacB64 with
        | some key => return .ok (uuid,startTime,key)
        | none => do
          Logged.log .error (connTag connId ++ "token rejected: HMAC mismatch for uuid=" ++ uuid)
          return .error .invalidHmac
  | _ => do
    Logged.log .debug (connTag connId ++ "token parse error: expected 3 parts, got " ++
      natText parts.length)
    return .error .parseError

def validateV1 (cr : Crypto) (rawToken : Text) (keys : List SecretKey) (connId : Nat)
    (clock : ClockReadings) : Logged TokenResult := do
  match ← matchV1 cr rawToken keys connId with
  | .ok (_,startTime,key) => do
    Logged.log .info (connTag connId ++ "v1 token HMAC accepted by key '" ++ key.label ++ "'")
    timeWindow startTime connId key.label clock.window
  | .error rejected => return rejected

/-! ## v2: time and source address -/

inductive V2Match
  | timeMismatch
  | ipMismatch
  | ok
deriving DecidableEq

def timeBytes (bytes : Bytes) : Bytes := bytes.take 4

def packetHash (bytes : Bytes) : Bytes := (bytes.drop 4).take 8

def ipHash (bytes : Bytes) : Bytes := (bytes.drop 12).take 4

def matchV2 (cr : Crypto) (bytes : Bytes) (key : SecretKey) (ip16 : Bytes) (connId : Nat) :
    Logged V2Match := do
  let kb := utf8 key.key
  let ownPacket := hmacSha256Parts cr kb [timeBytes bytes]
  if ownPacket.take 8 ≠ packetHash bytes then do
    Logged.log .debug (connTag connId ++ "v2 key '" ++ key.label ++ "': time HMAC no match (own " ++
      hexBytes (ownPacket.take 8) ++ ")")
    return .timeMismatch
  else do
    Logged.log .debug (connTag connId ++ "v2 key '" ++ key.label ++ "': time HMAC matches")
    let ownIp := hmacSha256Parts cr kb [timeBytes bytes,ip16]
    if ownIp.take 4 = ipHash bytes then do
      Logged.log .debug (connTag connId ++ "v2 key '" ++ key.label ++ "': ip HMAC matches (own " ++
        hexBytes (ownIp.take 4) ++ ")")
      return .ok
    else do
      Logged.log .debug (connTag connId ++ "v2 key '" ++ key.label ++ "': ip HMAC MISMATCH (own " ++
        hexBytes (ownIp.take 4) ++ " token " ++ hexBytes (ipHash bytes) ++ ")")
      return .ipMismatch

/-- The key loop of `validate_v2`: the matched label and the IP mismatch flag after it. -/
def searchV2 (cr : Crypto) (bytes ip16 : Bytes) (connId : Nat) :
    List SecretKey → Logged (Option Text × Bool)
  | [] => return (none,false)
  | key::keys => do
    match ← matchV2 cr bytes key ip16 connId with
    | .timeMismatch => searchV2 cr bytes ip16 connId keys
    | .ipMismatch => return (none,true)
    | .ok => return (some key.label,false)

def timeField (bytes : Bytes) : UInt32 := UInt32.ofNat (bigEndian (timeBytes bytes))

def validateV2 (cr : Crypto) (raw : Text) (keys : List SecretKey) (connId : Nat)
    (sourceIp : Option IpAddr) (clock : ClockReadings) : Logged TokenResult := do
  match cr.base64.decode raw with
  | none => do
    Logged.log .debug (connTag connId ++ "v2 token parse error: not valid base64")
    return .parseError
  | some bytes =>
    if bytes.length ≠ 16 then do
      Logged.log .debug (connTag connId ++ "v2 token parse error: " ++ natText bytes.length ++
        " bytes (expected 16)")
      return .parseError
    else do
      Logged.log .debug (connTag connId ++ "v2 token: time=" ++ hexBytes (timeBytes bytes) ++
        " packet_hash=" ++ hexBytes (packetHash bytes) ++ " ip_hash=" ++ hexBytes (ipHash bytes))
      match sourceIp with
      | none => do
        Logged.log .error (connTag connId ++ "v2 token rejected: source IP unavailable")
        return .invalidIp
      | some ip => do
        let ip16 := mappedIpv6 ip
        Logged.log .debug (connTag connId ++ "v2 source ip " ++ ip.toText ++ " (mapped " ++
          hexBytes ip16 ++ ")")
        match ← searchV2 cr bytes ip16 connId keys with
        | (some label,_) => do
          Logged.log .info (connTag connId ++ "v2 token HMAC+IP accepted by key '" ++ label ++ "'")
          let startTime := reconstructTime (timeField bytes) clock.reconstruct
          Logged.log .debug (connTag connId ++ "v2 token time: u32=" ++
            natText (timeField bytes).toNat ++ " reconstructed=" ++ intText startTime.toInt ++
            " now=" ++ intText clock.reconstruct.toInt ++ " (early " ++
            intText (startTime - clock.reconstruct).toInt ++ "s)")
          timeWindow startTime connId label clock.window
        | (none,true) => do
          Logged.log .error (connTag connId ++ "v2 token rejected: source IP " ++ ip.toText ++
            " does not match token")
          return .invalidIp
        | (none,false) => do
          Logged.log .error (connTag connId ++ "v2 token rejected: HMAC mismatch")
          return .invalidHmac

/-- Validate an authentication token, auto-detecting the version. -/
def validateToken (cr : Crypto) (rawToken : Text) (keys : List SecretKey) (connId : Nat)
    (sourceIp : Option IpAddr) (v2Only : Bool) (clock : ClockReadings) : Logged TokenResult := do
  match extractV2 rawToken with
  | some v2B64 => validateV2 cr v2B64 keys connId sourceIp clock
  | none =>
    if v2Only then do
      Logged.log .error (connTag connId ++
        "token rejected: no v2 part (#v2# marker) and server is in v2-only mode")
      return .v2Required
    else validateV1 cr rawToken keys connId clock

/-! ## The `/ip` check -/

/-- Result of checking the token sent to `/ip`. -/
structure IpToken where
  key : SecretKey
  openTestUuid : Text
  matchingIp : Bool
deriving DecidableEq

/-- The v1 part of a token sent to `/ip` and its v2 part, if there is one. -/
def splitIpToken (rawToken : Text) : Text × Option Text :=
  match splitOnce "_#v2#" rawToken with
  | some (v1,v2) => (v1,some v2)
  | none => (rawToken,none)

/-- Whether a v2 part was issued with the given key for the source address. -/
def matchingIp (cr : Crypto) (v2 : Option Text) (key : SecretKey) (sourceIp : IpAddr)
    (connId : Nat) : Logged Bool :=
  match v2.bind cr.base64.decode with
  | some bytes =>
    if bytes.length = 16 then do
      let m ← matchV2 cr bytes key (mappedIpv6 sourceIp) connId
      return m = .ok
    else return false
  | none => return false

/-- Check a token sent to `/ip`: the v1 part identifies the key, the v2 part is only reported. -/
def checkIpToken (cr : Crypto) (rawToken : Text) (keys : List SecretKey) (connId : Nat)
    (sourceIp : IpAddr) (now : Int64) : Logged (Except TokenResult IpToken) := do
  let (v1,v2) := splitIpToken rawToken
  match ← matchV1 cr v1 keys connId with
  | .error rejected => return .error rejected
  | .ok (uuid,startTime,key) =>
    match ← windowCheck startTime connId now with
    | .error rejected => return .error rejected
    | .ok _ => do
      let matching ← matchingIp cr v2 key sourceIp connId
      Logged.log .info (connTag connId ++ "ip check token accepted by key '" ++ key.label ++
        "'; matching_ip=" ++ boolText matching)
      return .ok ⟨key,uuid,matching⟩

/-- Build a combined token as the control server issues it. -/
def makeTestToken (cr : Crypto) (key openTestUuid : Text) (start : Int64) (ip : IpAddr) : Text :=
  let data := openTestUuid ++ "_" ++ intText start.toInt
  let v1 := data ++ "_" ++ hmacSha1B64 cr (utf8 key) (utf8 data)
  let tb := bigEndianBytes start.toUInt64.toUInt32
  let v2 := tb ++ (hmacSha256Parts cr (utf8 key) [tb]).take 8 ++
    (hmacSha256Parts cr (utf8 key) [tb,mappedIpv6 ip]).take 4
  v1 ++ "_#v2#" ++ cr.base64.encode v2

end Rmbtd
