import Rmbtd.IpCheck.Uuid
import Rmbtd.Library.Json
import Rmbtd.Net.AddrParser
import Rmbtd.Protocol.Token

/-!
# The answer to an `/ip` request

`ip_response` of `ip_check.rs` with the functions it calls. Parsing JSON is a parameter, since
that is left to the crate `serde_json`.
-/

namespace Rmbtd

def member (key : Text) (members : List (Text × Json)) : Option Json := members.lookup key

/-- `serde_json::from_slice`, with the text of its error. -/
abbrev JsonParser := Bytes → Except Text Json

/-- A successful `/ip` answer and the detail for the log line. -/
structure IpAnswer where
  json : Text
  note : Text
deriving DecidableEq

structure IpError where
  status : Text
  message : Text
deriving DecidableEq

def badRequest (message : Text) : IpError := ⟨"400 Bad Request",message⟩

/-- Java's link-local, loopback or site-local, which is `fec0::/10` for IPv6. -/
def isIpLocal : IpAddr → Bool
  | .v4 a => a.isLoopback || a.isLinkLocal || a.isPrivate
  | .v6 a =>
    let first := a.segments.headD 0 &&& 0xffc0
    a.isLoopback || first == 0xfe80 || first == 0xfec0

private def version (ip : IpAddr) : Text := if ip.isIpv4 then "ipv4" else "ipv6"

private def scope (ip : IpAddr) : Text := if isIpLocal ip then "local" else "public"

/-- NAT classification of the address the client sees against the one the server sees. -/
def natType (localIp : Option IpAddr) (publicIp : IpAddr) : Text :=
  match localIp with
  | none => "is_" ++ version publicIp
  | some localIp =>
    if localIp = publicIp then "no_nat_" ++ version publicIp
    else if localIp.isIpv4 = publicIp.isIpv4 then
      "nat_" ++ scope localIp ++ "_to_" ++ scope publicIp ++ "_" ++ version publicIp
    else "nat_" ++ version localIp ++ "_to_" ++ scope publicIp ++ "_" ++ version publicIp

/-- `HMAC-SHA256(key, ip16 ‖ uuid16)`. -/
def ipSignature (cr : Crypto) (key : Bytes) (ip : IpAddr) (openTestUuid : Bytes) : Bytes :=
  let ip16 := match ip with
    | .v4 a => a.toIpv6Mapped.octets.toList
    | .v6 a => a.octets.toList
  cr.hmacSha256 key (ip16 ++ openTestUuid)

def tokenError : TokenResult → Text
  | .tooEarly reason => "invalid token: " ++ reason
  | .tooLate reason => "invalid token: " ++ reason
  | .parseError => "invalid token: malformed"
  | _ => "invalid token"

/-- `client_ip_local`: null, missing and blank mean unknown, scalars are coerced to strings. -/
def localText (members : List (Text × Json)) : Except IpError (Option Text) :=
  match member "client_ip_local" members with
  | none => .ok none
  | some .null => .ok none
  | some (.string s) => .ok (if trim s = [] then none else some s)
  | some (.number text) => .ok (some text)
  | some (.bool b) => .ok (some (boolText b))
  | some _ => .error (badRequest "Invalid request format: client_ip_local must be a string")

/-- The address in `client_ip_local`; an IPv4-mapped one counts as IPv4. -/
def localAddr (members : List (Text × Json)) : Except IpError (Option IpAddr) :=
  match localText members with
  | .error e => .error e
  | .ok none => .ok none
  | .ok (some s) =>
    match parseIpAddr s with
    | some ip => .ok (some ip.toCanonical)
    | none => .error (badRequest "client_ip_local must be valid IP address")

def tokenText (members : List (Text × Json)) : Except IpError (Option Text) :=
  match member "token" members with
  | some (.string s) => .ok (if trim s ≠ [] then some s else none)
  | none => .ok none
  | some .null => .ok none
  | some _ => .error (badRequest "Invalid request format: token must be a string")

/-- The members an answer has because of the token, with what they add to the note. -/
def signedMembers (cr : Crypto) (token : Text) (keys : List SecretKey) (connId : Nat)
    (publicIp : IpAddr) (now : Int64) : Logged (Except IpError (Text × Text)) := do
  match ← checkIpToken cr token keys connId publicIp now with
  | .error rejected => return .error ⟨"403 Forbidden",tokenError rejected⟩
  | .ok checked =>
    match parseUuid checked.openTestUuid with
    | none => return .error ⟨"403 Forbidden","invalid token: malformed open test UUID"⟩
    | some uuid =>
      let signature := ipSignature cr (utf8 checked.key.key) publicIp uuid
      let matching := boolText checked.matchingIp
      return .ok (",\"matching_ip\":" ++ matching ++ ",\"signature\":\"" ++
          cr.base64.encode signature ++ "\"",
        ", key '" ++ checked.key.label ++ "', matching_ip=" ++ matching ++ ", signed")

/-- Build the answer for request `body` from a client at `publicIp`. -/
def ipResponse (cr : Crypto) (fromSlice : JsonParser) (body : Bytes) (publicIp : IpAddr)
    (keys : List SecretKey) (connId : Nat) (now : Int64) : Logged (Except IpError IpAnswer) := do
  if body = [] then return .error (badRequest "Required request body is missing")
  else match fromSlice body with
  | .error e => return .error (badRequest ("Invalid request format: " ++ e))
  | .ok (.object members) =>
    match localAddr members with
    | .error e => return .error e
    | .ok localIp =>
      match tokenText members with
      | .error e => return .error e
      | .ok token =>
        let publicIp := publicIp.toCanonical
        let natType := natType localIp publicIp
        let v : Text := if publicIp.isIpv4 then "4" else "6"
        let json : Text := "\x7b\"v\":\"" ++ v ++ "\",\"ip\":\"" ++ publicIp.toText ++
          "\",\"nat_type\":\"" ++ natType ++ "\""
        match token with
        | none => return .ok ⟨json ++ "\x7d",natType ++ ", no token, unsigned"⟩
        | some token =>
          match ← signedMembers cr token keys connId publicIp now with
          | .error e => return .error e
          | .ok (signed,note) => return .ok ⟨json ++ signed ++ "\x7d",natType ++ note⟩
  | .ok _ => return .error (badRequest "Invalid request format: expected a JSON object")

end Rmbtd
