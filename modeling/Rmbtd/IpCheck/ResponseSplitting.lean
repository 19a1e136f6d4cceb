import Rmbtd.EventBody
import Rmbtd.IpCheck.Handle
import Rmbtd.IpCheck.Signing
import Rmbtd.Library.Http
import Rmbtd.Protocol.Gate

/-!
# What a client can put into a response

The only text of a client in a response to `/ip` is the value of `Access-Control-Allow-Headers`.
The response is read as the server means it if and only if that value does not begin a new line.
-/

namespace Rmbtd

open Session Effect HttpTransport

/-! ## The fields the server sends -/

instance (name : Bytes) : Decidable (Http.IsToken name) := inferInstanceAs (Decidable (_ ∧ _))

def headerField (name value : Text) (h : Http.IsToken (utf8 name) ∧ (10 : UInt8) ∉ utf8 value ∧
    Http.trimOws (utf8 value) = utf8 value) : Http.Field :=
  ⟨name,value,h.1,h.2.1,h.2.2⟩

namespace IpField

def connection : Http.Field := headerField "Connection" "close" (by decide +kernel)

def hsts : Http.Field := headerField "Strict-Transport-Security" "max-age=31536000" (by decide +kernel)

def allowOrigin : Http.Field := headerField "Access-Control-Allow-Origin" "*" (by decide +kernel)

def allowMethods : Http.Field := headerField "Access-Control-Allow-Methods" "POST, OPTIONS" (by decide +kernel)

def maxAge : Http.Field := headerField "Access-Control-Max-Age" "1800" (by decide +kernel)

def accept : Http.Field := headerField "Accept" "application/json" (by decide +kernel)

def allow : Http.Field := headerField "Allow" "POST, OPTIONS" (by decide +kernel)

def contentType : Http.Field := headerField "Content-Type" "application/json" (by decide +kernel)

def cacheControl : Http.Field :=
  headerField "Cache-Control" "no-cache, no-store, max-age=0, must-revalidate" (by decide +kernel)

theorem natText_bytes {n : Nat} {b : UInt8} (hb : b ∈ utf8 (natText n)) : 48 ≤ b.toNat ∧ b.toNat ≤ 57 := by
  have hdigit {c : Char} (hc : c ∈ natText n) : 48 ≤ c.toNat ∧ c.toNat ≤ 57 := by
    have h := Char.isDigit_iff_toNat.mp (natText_isDigit hc)
    simpa only [Char.reduceToNat] using h
  rw [utf8_of_ascii fun c hc => by have := hdigit hc; omega] at hb
  obtain ⟨c,hc,rfl⟩ := List.mem_map.mp hb
  have hc := hdigit hc
  rw [UInt8.toNat_ofNat',Nat.mod_eq_of_lt (by omega)]
  exact hc

def contentLength (n : Nat) : Http.Field where
  name := "Content-Length"
  value := natText n
  isToken := by decide +kernel
  isLine := by
    intro hmem
    exact absurd (natText_bytes hmem).1 (by decide)
  isTrimmed := by
    apply Http.trimOws_of_not_ows
    intro b hb
    have hdigit := natText_bytes hb
    by_contra hows
    simp only [Http.isOws,Bool.not_eq_false,Bool.or_eq_true,beq_iff_eq] at hows
    rcases hows with rfl | rfl <;> exact absurd hdigit.1 (by decide)

end IpField

def ipStatuses : List Text :=
  ["200 OK","400 Bad Request","403 Forbidden","405 Method Not Allowed","411 Length Required",
    "413 Content Too Large","415 Unsupported Media Type"]

/-- The fields that depend on the method and the status. One value is the client's. -/
def extraFields (method status : Text) : List (Text × Option Text) :=
  if method = "OPTIONS" then
    [IpField.allowMethods.fixed,("Access-Control-Allow-Headers",none),IpField.maxAge.fixed]
  else if status = "415 Unsupported Media Type" then [IpField.accept.fixed]
  else if status = "405 Method Not Allowed" then [IpField.allow.fixed]
  else []

def firstFields (addHsts origin : Bool) : List Http.Field :=
  IpField.connection::((if addHsts then [IpField.hsts] else []) ++
    if origin then [IpField.allowOrigin] else [])

def lastFields (bodyLength : Nat) : List Http.Field :=
  (if bodyLength = 0 then [] else [IpField.contentType]) ++
    [IpField.cacheControl,IpField.contentLength bodyLength]

def emittedFields (addHsts origin : Bool) (method status : Text) (bodyLength : Nat) :
    List (Text × Option Text) :=
  (firstFields addHsts origin).map Http.Field.fixed ++ (extraFields method status ++
    (lastFields bodyLength).map Http.Field.fixed)

def ipMessages : List Text :=
  ["Content-Type must be application/json","Content-Length required","request body too large",
    "Required request body is missing","Invalid request format: expected a JSON object",
    "Invalid request format: client_ip_local must be a string","client_ip_local must be valid IP address",
    "Invalid request format: token must be a string","invalid token","invalid token: malformed",
    "invalid token: malformed open test UUID"]

/-- The message of a refusal. It depends on the request in what the parser finds wrong with it and in the
number of seconds a token is early or late. -/
inductive IpMessage (fromSlice : JsonParser) : Text → Prop
  | fixed {message : Text} (h : message ∈ ipMessages) : IpMessage fromSlice message
  | malformed {body : Bytes} {e : Text} (h : fromSlice body = .error e) :
    IpMessage fromSlice ("Invalid request format: " ++ e)
  | early (s : Int64) : IpMessage fromSlice ("invalid token: " ++
      ("token not valid yet: client is " ++ intText s.toInt ++ "s early (max " ++ intText 20 ++ ")"))
  | late (s : Int64) : IpMessage fromSlice ("invalid token: " ++
      ("token expired: client is " ++ intText s.toInt ++ "s late (max " ++ intText 90 ++ ")"))

/-- The body of an answer to `POST`: what the server found out, or why the request is refused. -/
inductive IsIpBody (http : HttpEnv) : Bytes → Prop
  | answer (peer : IpAddr) (localIp : Option IpAddr) (signed : Option (Bool × Bytes)) :
    IsIpBody http (utf8 (answerText (publicVersion peer) (publicText peer) (natType localIp peer.toCanonical)
      (signed.map fun p => (p.1,http.env.crypto.base64.encode p.2))))
  | refusal {message : Text} (h : IpMessage http.fromSlice message) : IsIpBody http (utf8 (http.errorBody message))

/-- The bytes are exactly one response with the fields the server sends for its status, each at
most once. Only an answer to `POST` has a body, which has no text of the client. -/
def IsIpResponse (http : HttpEnv) (addHsts origin : Bool) (method : Text) (bytes : Bytes) : Prop :=
  ∃ status ∈ ipStatuses, ∃ fields body,
    Http.readResponse bytes = some (⟨utf8 ("HTTP/1.1 ".toList ++ status),fields,body⟩,[]) ∧
    Http.Matches fields (emittedFields addHsts origin method status body.length) ∧
    (fields.map Prod.fst).Nodup ∧ (method ≠ "POST" → body = []) ∧ (method = "POST" → IsIpBody http body)

/-- Every line feed is followed by a blank, so that it begins a folded line. -/
def FoldsOnly (s : Text) : Prop :=
  ∀ a b, s = a ++ '\n'::b → b.head? = some ' ' ∨ b.head? = some '\t'

private theorem foldsOnly_cons {c : Char} {s : Text} :
    FoldsOnly (c::s) ↔ (c = '\n' → s.head? = some ' ' ∨ s.head? = some '\t') ∧ FoldsOnly s := by
  constructor
  · intro h
    constructor
    · rintro rfl
      exact h [] s rfl
    · intro a b hs
      exact h (c::a) b (by rw [hs]; rfl)
  · rintro ⟨hc,hs⟩ a b hab
    cases a with
    | nil =>
      obtain ⟨rfl,rfl⟩ := List.cons.inj hab
      exact hc rfl
    | cons d a =>
      obtain ⟨-,hab⟩ := List.cons.inj hab
      exact hs a b hab

private theorem newLines_append {l : Bytes} (h : (10 : UInt8) ∉ l) (r : Bytes) :
    Http.newLines (l ++ r) = Http.newLines r := by
  induction l with
  | nil => rfl
  | cons b l ih =>
    simp only [List.mem_cons,not_or] at h
    rw [List.cons_append,Http.newLines,if_neg fun hb => h.1 hb.1.symm,ih h.2,Nat.zero_add]

private theorem isFold_utf8 (s : Text) :
    Http.isFold (utf8 s) = true ↔ s.head? = some ' ' ∨ s.head? = some '\t' := by
  cases s with
  | nil => simp [Http.isFold]
  | cons c s =>
    obtain ⟨b,bs,hb⟩ : ∃ b bs, String.utf8EncodeChar c = b::bs := by
      apply List.exists_cons_of_length_pos
      rw [String.length_utf8EncodeChar]
      exact Char.utf8Size_pos c
    have hmem : b ∈ String.utf8EncodeChar c := by
      rw [hb]
      exact List.mem_cons_self
    have hblank {d : UInt8} (hd : d.toNat < 128) (henc : String.utf8EncodeChar (Char.ofNat d.toNat) = [d]) :
        b = d ↔ c = Char.ofNat d.toNat := by
      constructor
      · rintro rfl
        exact (encodeChar_of_ascii hmem hd).2
      · rintro rfl
        rw [henc] at hmem
        exact List.mem_singleton.mp hmem
    have hspace := hblank (show (32 : UInt8).toNat < 128 by decide) (by decide)
    have htab := hblank (show (9 : UInt8).toNat < 128 by decide) (by decide)
    rw [utf8_cons,hb,List.head?_cons,Option.some_inj,Option.some_inj]
    simp only [Http.isFold,Http.isOws,List.cons_append,List.head?_cons,Option.any_some,Bool.or_eq_true,
      beq_iff_eq,hspace,htab]
    exact Iff.rfl

theorem newLines_utf8 {s : Text} : Http.newLines (utf8 s) = 0 ↔ FoldsOnly s := by
  induction s with
  | nil => simp [Http.newLines,FoldsOnly]
  | cons c s ih =>
    rw [foldsOnly_cons,← ih,← isFold_utf8,utf8_cons]
    by_cases hc : c = '\n'
    · subst hc
      have hencode : String.utf8EncodeChar '\n' = [10] := by decide
      rw [hencode,List.singleton_append,Http.newLines]
      simp
    · have hlf : (10 : UInt8) ∉ String.utf8EncodeChar c := by
        intro hmem
        exact hc (encodeChar_of_ascii hmem (by decide)).2
      rw [newLines_append hlf]
      simp [hc]

/-! ## The response as it is written -/

def fieldText (f : Http.Field) : Text := f.name ++ ": ".toList ++ f.value ++ "\r\n".toList

theorem utf8_fieldText (f : Http.Field) : utf8 (fieldText f) = f.line ++ [13,10] := by
  have hcolon : utf8 ": ".toList = [58,32] := by decide
  have hcrlf : utf8 "\r\n".toList = [13,10] := by decide
  rw [fieldText,utf8_append,utf8_append,utf8_append,hcolon,hcrlf]
  simp [Http.Field.line]

private theorem block_cons (l : Bytes) (b : List Bytes) :
    Http.block (l::b) = l ++ [13,10] ++ Http.block b := List.flatMap_cons

def statusLine (status : Text) : Bytes := utf8 ("HTTP/1.1 ".toList ++ status)

private theorem utf8_firstFields (addHsts origin : Bool) :
    utf8 ("Connection: close\r\n".toList ++ hstsHeader addHsts ++ corsHeader origin) =
      Http.block ((firstFields addHsts origin).map Http.Field.line) := by
  have hconnection : "Connection: close\r\n".toList = fieldText IpField.connection := by decide
  have hhsts : "Strict-Transport-Security: max-age=31536000\r\n".toList = fieldText IpField.hsts := by decide
  have hcors : "Access-Control-Allow-Origin: *\r\n".toList = fieldText IpField.allowOrigin := by decide
  unfold hstsHeader corsHeader firstFields
  rw [hconnection,hhsts,hcors,utf8_append,utf8_append,utf8_fieldText,List.map_cons,block_cons]
  cases addHsts <;> cases origin <;> simp [utf8_fieldText,Http.block]

private theorem byteLen_eq_zero {s : Text} : byteLen s = 0 ↔ s = [] := by
  cases s with
  | nil => simp [byteLen]
  | cons c s =>
    have hpos := Char.utf8Size_pos c
    rw [byteLen,utf8_cons,List.length_append,String.length_utf8EncodeChar]
    simp
    omega

private theorem utf8_lastFields (body : Text) :
    utf8 ((if body = [] then [] else "Content-Type: application/json\r\n".toList) ++
      "Cache-Control: no-cache, no-store, max-age=0, must-revalidate\r\n".toList ++
      ("Content-Length: ".toList ++ natText (byteLen body) ++ "\r\n".toList)) =
      Http.block ((lastFields (byteLen body)).map Http.Field.line) := by
  have htype : "Content-Type: application/json\r\n".toList = fieldText IpField.contentType := by decide
  have hcache : "Cache-Control: no-cache, no-store, max-age=0, must-revalidate\r\n".toList =
      fieldText IpField.cacheControl := by decide
  have hname : "Content-Length: ".toList = "Content-Length".toList ++ ": ".toList := by decide
  have hlength : "Content-Length: ".toList ++ natText (byteLen body) ++ "\r\n".toList =
      fieldText (IpField.contentLength (byteLen body)) := by
    exact congrArg (fun name => name ++ natText (byteLen body) ++ "\r\n".toList) hname
  unfold lastFields
  rw [htype,hcache,hlength,utf8_append,utf8_append,utf8_fieldText,utf8_fieldText]
  by_cases hbody : body = []
  · rw [if_pos hbody,if_pos (byteLen_eq_zero.mpr hbody)]
    simp [Http.block]
  · rw [if_neg hbody,if_neg (mt byteLen_eq_zero.mp hbody),utf8_fieldText]
    simp [Http.block]

private theorem utf8_render (addHsts origin : Bool) (r : IpReply) :
    utf8 (r.render addHsts origin) =
      Http.block (statusLine r.status::(firstFields addHsts origin).map Http.Field.line) ++
        (utf8 r.extra ++ (Http.block ((lastFields (byteLen r.body)).map Http.Field.line) ++
          13::10::utf8 r.body)) := by
  have hcrlf : utf8 "\r\n".toList = [13,10] := by decide
  have hlast := utf8_lastFields r.body
  have hfirst := utf8_firstFields addHsts origin
  rw [block_cons,← hfirst,← hlast]
  unfold statusLine IpReply.render
  simp only [utf8_append,hcrlf,List.append_assoc,List.cons_append,List.nil_append]

private theorem utf8_optionsExtra (head : RequestHead) :
    utf8 (optionsReply head).extra = Http.block [IpField.allowMethods.line] ++
      (utf8 "Access-Control-Allow-Headers".toList ++ [58,32] ++ (utf8 head.requestHeaders ++
        13::10::Http.block [IpField.maxAge.line])) := by
  have hmethods : "Access-Control-Allow-Methods: POST, OPTIONS\r\n".toList =
    fieldText IpField.allowMethods := by decide
  have hage : "Access-Control-Max-Age: 1800\r\n".toList = fieldText IpField.maxAge := by decide
  have hname : utf8 "Access-Control-Allow-Headers: ".toList =
    utf8 "Access-Control-Allow-Headers".toList ++ [58,32] := by decide
  have hcrlf : utf8 "\r\n".toList = [13,10] := by decide
  unfold optionsReply
  dsimp only
  rw [hmethods,hage]
  simp only [utf8_append,hname,hcrlf,utf8_fieldText,Http.block,List.flatMap_cons,List.flatMap_nil,
    List.append_nil,List.append_assoc,List.cons_append,List.nil_append]

/-! ## Lengths and names -/

private theorem valuesOf_firstFields (addHsts origin : Bool) :
    Http.valuesOf "content-length" ((firstFields addHsts origin).map Http.Field.parsed) = [] := by
  apply Http.valuesOf_eq_nil
  cases addHsts <;> cases origin <;> decide

private theorem valuesOf_lastFields (n : Nat) :
    Http.valuesOf "content-length" ((lastFields n).map Http.Field.parsed) = [utf8 (natText n)] := by
  have hother : ∀ f ∈ [IpField.contentType.parsed,IpField.cacheControl.parsed],
      Http.lower f.1 ≠ utf8 "content-length" := by decide
  have hname : Http.lower (IpField.contentLength n).parsed.1 = utf8 "content-length" := by
    change Http.lower (utf8 "Content-Length".toList) = _
    decide
  have hlength : Http.valuesOf "content-length" [(IpField.contentLength n).parsed] = [utf8 (natText n)] := by
    rw [Http.valuesOf,List.filter_cons_of_pos (by simpa using hname)]
    rfl
  have hsplit : (lastFields n).map Http.Field.parsed =
      ((if n = 0 then [] else [IpField.contentType]) ++ [IpField.cacheControl]).map Http.Field.parsed ++
        [(IpField.contentLength n).parsed] := by
    unfold lastFields
    simp
  rw [hsplit,Http.valuesOf_append,hlength,Http.valuesOf_eq_nil]
  · rfl
  · intro f hf
    apply hother f
    split at hf
    · exact List.mem_cons_of_mem _ hf
    · exact hf

private theorem startLine_ok {status : Text} (h : status ∈ ipStatuses) :
    statusLine status ≠ [] ∧ (10 : UInt8) ∉ statusLine status := by
  have hall : ∀ status ∈ ipStatuses, statusLine status ≠ [] ∧ (10 : UInt8) ∉ statusLine status := by decide
  exact hall status h

private def fieldNames : List Text :=
  ["Connection","Strict-Transport-Security","Access-Control-Allow-Origin","Access-Control-Allow-Methods",
    "Access-Control-Allow-Headers","Access-Control-Max-Age","Accept","Allow","Content-Type",
    "Cache-Control","Content-Length"]

private theorem emittedFields_sublist (addHsts origin : Bool) (method status : Text) (n : Nat) :
    List.Sublist ((emittedFields addHsts origin method status n).map Prod.fst) fieldNames := by
  have hfirst : List.Sublist ((firstFields addHsts origin).map Http.Field.name) (fieldNames.take 3) := by
    cases addHsts <;> cases origin <;> decide
  have hextra : List.Sublist ((extraFields method status).map Prod.fst) ((fieldNames.drop 3).take 5) := by
    unfold extraFields
    repeat' split
    all_goals decide
  have hlast : List.Sublist ((lastFields n).map Http.Field.name) (fieldNames.drop 8) := by
    unfold lastFields
    by_cases hn : n = 0
    · rw [if_pos hn]
      exact List.Sublist.cons _ (List.Sublist.refl _)
    · rw [if_neg hn]
      exact List.Sublist.refl _
  have hnames (fs : List Http.Field) : (fs.map Http.Field.fixed).map Prod.fst = fs.map Http.Field.name := by
    rw [List.map_map]
    rfl
  rw [emittedFields,List.map_append,List.map_append,hnames,hnames]
  exact hfirst.append (hextra.append hlast)

private theorem matches_names {fields : List (Bytes × Bytes)} {expected : List (Text × Option Text)}
    (h : Http.Matches fields expected) : fields.map Prod.fst = (expected.map Prod.fst).map utf8 := by
  unfold Http.Matches at h
  induction h with
  | nil => rfl
  | cons hhead _ ih => rw [List.map_cons,hhead.1,ih,List.map_cons,List.map_cons]

private theorem matches_nodup {fields : List (Bytes × Bytes)} {addHsts origin : Bool} {method status : Text}
    {n : Nat} (h : Http.Matches fields (emittedFields addHsts origin method status n)) :
    (fields.map Prod.fst).Nodup := by
  have hnodup : fieldNames.Nodup := by decide
  rw [matches_names h]
  apply List.Nodup.map
  · exact fun _ _ => utf8_injective
  · exact (emittedFields_sublist addHsts origin method status n).nodup hnodup

/-! ## The replies -/

section
variable {http : HttpEnv} {keys : List SecretKey} {connId : Nat} {head : RequestHead}
  {w w' : World RawConn} {r : IpReply}

private def IsFixed (http : HttpEnv) (method : Text) (r : IpReply) : Prop :=
  r.status ∈ ipStatuses ∧ (method ≠ "POST" → r.body = []) ∧ (method = "POST" → IsIpBody http (utf8 r.body)) ∧
    ∃ fs ∈ [[],[IpField.accept],[IpField.allow]],
      utf8 r.extra = Http.block (fs.map Http.Field.line) ∧ extraFields method r.status = fs.map Http.Field.fixed

private def plainStatuses : List Text :=
  ["200 OK","400 Bad Request","403 Forbidden","411 Length Required","413 Content Too Large"]

private theorem isFixed_of_nil {status body : Text} {note : Option Text} (hstatus : status ∈ plainStatuses)
    (hbody : IsIpBody http (utf8 body)) : IsFixed http "POST" ⟨status,[],body,note⟩ := by
  have hall : ∀ status ∈ plainStatuses, status ∈ ipStatuses ∧
      status ≠ "415 Unsupported Media Type" ∧ status ≠ "405 Method Not Allowed" := by decide
  have hpost : "POST".toList ≠ "OPTIONS" := by decide
  obtain ⟨hmem,h415,h405⟩ := hall status hstatus
  refine ⟨hmem,fun hne => absurd rfl hne,fun _ => hbody,[],List.mem_cons_self,rfl,?_⟩
  rw [extraFields,if_neg hpost,if_neg h415,if_neg h405]
  rfl

private theorem isIpBody_fixed {message : Text} (h : message ∈ ipMessages) :
    IsIpBody http (utf8 (http.errorBody message)) := .refusal (.fixed h)

private theorem isFixed_415 {note : Option Text} : IsFixed http "POST" ⟨"415 Unsupported Media Type",
    "Accept: application/json\r\n",http.errorBody "Content-Type must be application/json",note⟩ := by
  have hmem : "415 Unsupported Media Type".toList ∈ ipStatuses := by decide
  have hline : utf8 "Accept: application/json\r\n".toList = Http.block [IpField.accept.line] := by decide
  have hextra : extraFields "POST" "415 Unsupported Media Type" = [IpField.accept.fixed] := rfl
  exact ⟨hmem,fun hpost => absurd rfl hpost,fun _ => isIpBody_fixed (by decide),_,
    List.mem_cons_of_mem _ List.mem_cons_self,hline,hextra⟩

private theorem isFixed_405 {method : Text} {note : Option Text} (hoptions : method ≠ "OPTIONS")
    (hpost : method ≠ "POST") :
    IsFixed http method ⟨"405 Method Not Allowed","Allow: POST, OPTIONS\r\n",[],note⟩ := by
  have hmem : "405 Method Not Allowed".toList ∈ ipStatuses := by decide
  have hline : utf8 "Allow: POST, OPTIONS\r\n".toList = Http.block [IpField.allow.line] := by decide
  have h415 : "405 Method Not Allowed".toList ≠ "415 Unsupported Media Type" := by decide
  have hextra : extraFields method "405 Method Not Allowed" = [IpField.allow.fixed] := by
    rw [extraFields,if_neg hoptions,if_neg h415,if_pos rfl]
  have hallow : [IpField.allow] ∈ [[],[IpField.accept],[IpField.allow]] := by simp
  exact ⟨hmem,fun _ => rfl,fun h => absurd h hpost,_,hallow,hline,hextra⟩

private theorem windowCheck_message {s now : Int64} {rejected : TokenResult}
    (h : (windowCheck s connId now).val = .error rejected) : IpMessage http.fromSlice (tokenError rejected) := by
  unfold windowCheck at h
  dsimp only at h
  rw [Logged.val_ite] at h
  split at h
  · cases h
    exact .early _
  · rw [Logged.val_ite] at h
    split at h
    · cases h
      exact .late _
    · cases h

private theorem checkIpToken_message {token : Text} {peer : IpAddr} {now : Int64} {rejected : TokenResult}
    (h : (checkIpToken http.env.crypto token keys connId peer now).val = .error rejected) :
    IpMessage http.fromSlice (tokenError rejected) := by
  simp only [checkIpToken,Logged.val_bind] at h
  cases hm : (matchV1 http.env.crypto (splitIpToken token).1 keys connId).val with
  | error e =>
    rw [hm] at h
    cases h
    rcases matchV1_error hm with rfl | rfl
    · exact .fixed (by decide)
    · exact .fixed (by decide)
  | ok found =>
    obtain ⟨u,s,k⟩ := found
    rw [hm] at h
    simp only [Logged.val_bind] at h
    cases hw : (windowCheck s connId now).val with
    | error e =>
      rw [hw] at h
      cases h
      exact windowCheck_message hw
    | ok early =>
      rw [hw] at h
      cases h

private theorem signedMembers_message {token : Text} {peer : IpAddr} {now : Int64} {e : IpError}
    (h : (signedMembers http.env.crypto token keys connId peer now).val = .error e) :
    IpMessage http.fromSlice e.message := by
  simp only [signedMembers,Logged.val_bind] at h
  cases hc : (checkIpToken http.env.crypto token keys connId peer now).val with
  | error rejected =>
    rw [hc] at h
    cases h
    exact checkIpToken_message hc
  | ok checked =>
    rw [hc] at h
    dsimp only at h
    cases hu : parseUuid checked.openTestUuid with
    | none =>
      rw [hu] at h
      cases h
      exact .fixed (by decide)
    | some uuid =>
      rw [hu] at h
      cases h

private theorem localAddr_message {members : List (Text × Json)} {e : IpError} (h : localAddr members = .error e) :
    e.message ∈ ipMessages := by
  unfold localAddr at h
  split at h
  · next ht =>
    cases h
    unfold localText at ht
    split at ht
    · cases ht
    · cases ht
    · cases ht
    · cases ht
    · cases ht
    · cases ht
      decide
  · cases h
  · split at h
    · cases h
    · cases h
      decide

private theorem tokenText_message {members : List (Text × Json)} {e : IpError} (h : tokenText members = .error e) :
    e.message ∈ ipMessages := by
  unfold tokenText at h
  split at h
  · cases h
  · cases h
  · cases h
  · cases h
    decide

private theorem ipResponse_message {body : Bytes} {peer : IpAddr} {now : Int64} {e : IpError}
    (h : (ipResponse http.env.crypto http.fromSlice body peer keys connId now).val = .error e) :
    IpMessage http.fromSlice e.message := by
  simp only [ipResponse] at h
  split at h
  · cases h
    exact .fixed (by decide)
  · split at h
    · next hparse =>
      cases h
      exact .malformed hparse
    · split at h
      · next hl =>
        cases h
        exact .fixed (localAddr_message hl)
      · split at h
        · next ht =>
          cases h
          exact .fixed (tokenText_message ht)
        · split at h
          · cases h
          · simp only [Logged.val_bind] at h
            split at h
            · next hs =>
              cases h
              exact signedMembers_message hs
            · cases h
    · cases h
      exact .fixed (by decide)

private theorem ipResponse_body {body : Bytes} {peer : IpAddr} {now : Int64} {answer : IpAnswer}
    (h : (ipResponse http.env.crypto http.fromSlice body peer keys connId now).val = .ok answer) :
    IsIpBody http (utf8 answer.json) := by
  obtain ⟨members,localIp,-,-,hcase⟩ := ipResponse_says h
  rcases hcase with ⟨-,htext⟩ | ⟨token,k,uuid,matching,-,-,-,-,htext⟩
  · rw [htext]
    exact .answer peer localIp none
  · rw [htext]
    exact .answer peer localIp (some (matching,http.env.crypto.hmacSha256 (utf8 k.key) (peer.octets16 ++ uuid)))

private theorem bodyReply_ok {body : Bytes} {peer : SocketAddr}
    (h : bodyReply http keys connId head body peer w = .ok r w') :
    w'.stream = w.stream ∧ IsFixed http "POST" r := by
  unfold bodyReply at h
  split at h
  · cases h
    exact ⟨rfl,isFixed_415⟩
  · obtain ⟨now,w₁,hnow,h⟩ := bind_eq_ok h
    cases hnow
    rw [bind_ok (logged_eq _ _)] at h
    cases he : (ipResponse http.env.crypto http.fromSlice body peer.ip keys connId (w.wall 0)).val with
    | ok answer =>
      rw [he] at h
      cases h
      exact ⟨rfl,isFixed_of_nil (by decide) (ipResponse_body he)⟩
    | error e =>
      have hstatus : e.status ∈ plainStatuses := by
        rcases ipResponse_error he with hs | hs
        · rw [hs]
          decide
        · rw [hs]
          decide
      rw [he] at h
      cases h
      exact ⟨rfl,isFixed_of_nil hstatus (.refusal (ipResponse_message he))⟩

private theorem postReply_ok (h : postReply http keys connId head w = .ok r w') :
    w'.stream.output = w.stream.output ∧ IsFixed http "POST" r := by
  unfold postReply at h
  split at h
  · cases h
    exact ⟨rfl,isFixed_of_nil (by decide) (isIpBody_fixed (by decide))⟩
  · split at h
    · obtain ⟨bytes,w₁,hread,h⟩ := bind_eq_ok h
      obtain ⟨conn,hconn,rfl⟩ := onStream_eq_ok hread
      cases h
      exact ⟨RawConn.readUpTo_output hconn,isFixed_of_nil (by decide) (isIpBody_fixed (by decide))⟩
    · obtain ⟨body,w₁,hread,h⟩ := bind_eq_ok h
      obtain ⟨conn,hconn,rfl⟩ := onStream_eq_ok hread
      split at h
      · cases h
      · cases hpeer : conn.peer with
        | none =>
          rw [peerReply_none http keys connId head body hpeer] at h
          cases h
        | some peer =>
          rw [peerReply_some http keys connId head body hpeer] at h
          obtain ⟨hstream,hfixed⟩ := bodyReply_ok h
          rw [hstream]
          exact ⟨RawConn.readUpTo_output hconn,hfixed⟩

private theorem ipReply_ok (h : ipReply http keys connId head w = .ok r w') :
    w'.stream.output = w.stream.output ∧
      if head.method = "OPTIONS" then r = optionsReply head else IsFixed http head.method r := by
  unfold ipReply at h
  by_cases hoptions : head.method = "OPTIONS"
  · rw [if_pos hoptions] at h ⊢
    cases h
    exact ⟨rfl,rfl⟩
  · rw [if_neg hoptions] at h ⊢
    by_cases hpost : head.method = "POST"
    · rw [if_pos hpost] at h
      rw [hpost]
      exact postReply_ok h
    · rw [if_neg hpost] at h
      cases h
      exact ⟨rfl,isFixed_405 hoptions hpost⟩

private theorem readResponse_render {method : Text} {addHsts origin : Bool} (h : IsFixed http method r) :
    ∃ fields, Http.readResponse (utf8 (r.render addHsts origin)) =
        some (⟨statusLine r.status,fields,utf8 r.body⟩,[]) ∧
      Http.Matches fields (emittedFields addHsts origin method r.status (byteLen r.body)) := by
  obtain ⟨hstatus,-,-,fs,hfs,hextra,hfixed⟩ := h
  have hnone : ∀ fs ∈ [[],[IpField.accept],[IpField.allow]], ∀ f ∈ fs.map Http.Field.parsed,
      Http.lower f.1 ≠ utf8 "content-length" := by decide
  have hall (a b c : List Http.Field) : Http.block (statusLine r.status::a.map Http.Field.line) ++
      (Http.block (b.map Http.Field.line) ++ (Http.block (c.map Http.Field.line) ++ 13::10::utf8 r.body)) =
      Http.block (statusLine r.status::(a ++ (b ++ c)).map Http.Field.line) ++ 13::10::utf8 r.body := by
    simp only [Http.block,List.flatMap_cons,List.map_append,List.flatMap_append,List.append_assoc]
  have hlength : Http.valuesOf "content-length" ((firstFields addHsts origin ++
      (fs ++ lastFields (byteLen r.body))).map Http.Field.parsed) = [utf8 (natText (byteLen r.body))] := by
    rw [List.map_append,List.map_append,Http.valuesOf_append,Http.valuesOf_append,valuesOf_firstFields,
      Http.valuesOf_eq_nil (hnone fs hfs),valuesOf_lastFields]
    rfl
  have hmatches := Http.matches_parsed (firstFields addHsts origin ++ (fs ++ lastFields (byteLen r.body)))
  have hemitted : (firstFields addHsts origin ++ (fs ++ lastFields (byteLen r.body))).map Http.Field.fixed =
      emittedFields addHsts origin method r.status (byteLen r.body) := by
    rw [emittedFields,hfixed,List.map_append,List.map_append]
  rw [hemitted] at hmatches
  refine ⟨_,?_,hmatches⟩
  rw [utf8_render,hextra,hall]
  exact Http.readResponse_fixed (startLine_ok hstatus) _ _ hlength

private theorem isIpResponse_fixed {method : Text} {addHsts origin : Bool} (h : IsFixed http method r) :
    IsIpResponse http addHsts origin method (utf8 (r.render addHsts origin)) := by
  obtain ⟨fields,hread,hmatches⟩ := readResponse_render h
  refine ⟨r.status,h.1,fields,utf8 r.body,hread,hmatches,matches_nodup hmatches,?_,h.2.2.1⟩
  intro hpost
  rw [h.2.1 hpost]
  rfl

private theorem isIpResponse_options {addHsts origin : Bool} :
    IsIpResponse http addHsts origin "OPTIONS" (utf8 ((optionsReply head).render addHsts origin)) ↔
      FoldsOnly head.requestHeaders := by
  have hstatus : "200 OK".toList ∈ ipStatuses := by decide
  have hname : Http.IsToken (utf8 "Access-Control-Allow-Headers") := by decide +kernel
  have hlength (v : Bytes) : Http.valuesOf "content-length"
      ((firstFields addHsts origin ++ [IpField.allowMethods]).map Http.Field.parsed ++
        (utf8 "Access-Control-Allow-Headers",v)::(IpField.maxAge::lastFields 0).map Http.Field.parsed) =
      [utf8 (natText 0)] := by
    have hmethods : Http.valuesOf "content-length" ([IpField.allowMethods].map Http.Field.parsed) = [] := by
      decide
    have hage : Http.valuesOf "content-length" ([IpField.maxAge].map Http.Field.parsed) = [] := by decide
    have hfree : Http.valuesOf "content-length" [(utf8 "Access-Control-Allow-Headers",v)] = [] := by
      have hother : Http.lower (utf8 "Access-Control-Allow-Headers") ≠ utf8 "content-length" := by decide
      apply Http.valuesOf_eq_nil
      intro f hf
      rw [List.mem_singleton.mp hf]
      exact hother
    have hsplit : (utf8 "Access-Control-Allow-Headers",v)::(IpField.maxAge::lastFields 0).map Http.Field.parsed =
        [(utf8 "Access-Control-Allow-Headers",v)] ++ ([IpField.maxAge].map Http.Field.parsed ++
          (lastFields 0).map Http.Field.parsed) := rfl
    rw [hsplit,List.map_append]
    simp only [Http.valuesOf_append,valuesOf_firstFields,hmethods,hage,hfree,valuesOf_lastFields,List.nil_append]
  have hread := Http.readResponse_free_iff (startLine_ok hstatus) (firstFields addHsts origin ++
    [IpField.allowMethods]) (IpField.maxAge::lastFields 0) hname (utf8 head.requestHeaders) [] hlength
  have hbytes : utf8 ((optionsReply head).render addHsts origin) =
      Http.block (statusLine "200 OK"::(firstFields addHsts origin ++ [IpField.allowMethods]).map Http.Field.line) ++
        (utf8 "Access-Control-Allow-Headers" ++ [58,32] ++ (utf8 head.requestHeaders ++
          13::10::(Http.block ((IpField.maxAge::lastFields 0).map Http.Field.line) ++ [13,10]))) := by
    rw [utf8_render,utf8_optionsExtra]
    simp only [Http.block,List.flatMap_cons,List.flatMap_nil,List.map_append,List.map_cons,List.map_nil,
      List.flatMap_append,List.append_assoc,List.append_nil,List.cons_append,List.nil_append]
    rfl
  have hemitted : emittedFields addHsts origin "OPTIONS" "200 OK" 0 =
      (firstFields addHsts origin ++ [IpField.allowMethods]).map Http.Field.fixed ++
        ("Access-Control-Allow-Headers".toList,none)::(IpField.maxAge::lastFields 0).map Http.Field.fixed := by
    unfold emittedFields extraFields
    rw [if_pos rfl]
    simp
  rw [← newLines_utf8,← hread,← hbytes,← hemitted]
  constructor
  · intro h
    obtain ⟨status,_,fields,body,hresponse,hmatches,-,hbody,-⟩ := h
    have hline : statusLine status = statusLine "200 OK" := by
      rw [hbytes] at hresponse
      exact Http.readResponse_startLine (startLine_ok hstatus) hresponse
    obtain rfl : status = "200 OK" := List.append_cancel_left (utf8_injective hline)
    rw [hbody (by decide)] at hresponse hmatches
    exact ⟨fields,hresponse,hmatches⟩
  · intro h
    obtain ⟨fields,hresponse,hmatches⟩ := h
    exact ⟨_,hstatus,fields,[],hresponse,hmatches,matches_nodup hmatches,fun _ => rfl,
      fun hpost => absurd hpost (by decide)⟩

end

/-! ## No response splitting -/

private theorem handle_ok {http : HttpEnv} {keys : List SecretKey} {connId : Nat} {head : Text}
    {addHsts : Bool} {w w' : World RawConn} {summary : Text}
    (h : handle http keys connId head addHsts w = .ok summary w') : ∃ req r, parseHead head = .ok req ∧
      w'.stream.output = w.stream.output ++ utf8 (r.render addHsts req.origin) ∧
        if req.method = "OPTIONS" then r = optionsReply req else IsFixed http req.method r := by
  obtain ⟨req,w₁,h₁,hafter₁⟩ := bind_eq_ok h
  obtain ⟨hparse,rfl⟩ := liftExcept_eq_ok h₁
  obtain ⟨r,w₂,h₂,hafter₂⟩ := bind_eq_ok hafter₁
  obtain ⟨hsilent,hreply⟩ := ipReply_ok h₂
  obtain ⟨u,w₃,h₃,hafter₃⟩ := bind_eq_ok hafter₂
  obtain ⟨conn,hwrite,rfl⟩ := onStream_eq_ok h₃
  obtain ⟨u',w₄,h₄,hafter₄⟩ := bind_eq_ok hafter₃
  obtain ⟨conn',hflush,rfl⟩ := onStream_eq_ok h₄
  cases hafter₄
  refine ⟨req,r,hparse,?_,hreply⟩
  calc conn'.output = conn.output := RawConn.flush_output hflush
    _ = w₂.stream.output ++ utf8 (r.render addHsts req.origin) := RawConn.writeAll_output hwrite
    _ = _ := by rw [hsilent]

/-- A client that posts reads the status and the body of the reply in what is sent. -/
theorem handle_post_read {http : HttpEnv} {keys : List SecretKey} {connId : Nat} {head : Text}
    {addHsts : Bool} {w w' : World RawConn} {summary : Text}
    (h : handle http keys connId head addHsts w = .ok summary w') {req : RequestHead}
    (hparse : parseHead head = .ok req) (hpost : req.method = "POST") :
    ∃ r w₁ fields bytes, postReply http keys connId req w = .ok r w₁ ∧ r.status ∈ ipStatuses ∧
      summary = r.summary req.method ∧ w'.stream.output = w.stream.output ++ bytes ∧
      Http.readResponse bytes = some (⟨statusLine r.status,fields,utf8 r.body⟩,[]) := by
  have hoptions : "POST".toList ≠ "OPTIONS" := by decide
  obtain ⟨req',w₀,h₀,hafter⟩ := bind_eq_ok h
  obtain ⟨hparse',rfl⟩ := liftExcept_eq_ok h₀
  rw [hparse] at hparse'
  cases hparse'
  obtain ⟨r,w₁,h₁,hafter⟩ := bind_eq_ok hafter
  rw [ipReply,hpost,if_neg hoptions,if_pos rfl] at h₁
  obtain ⟨houtput,hfixed⟩ := postReply_ok h₁
  obtain ⟨u,w₂,h₂,hafter⟩ := bind_eq_ok hafter
  obtain ⟨conn,hwrite,rfl⟩ := onStream_eq_ok h₂
  obtain ⟨u',w₃,h₃,hafter⟩ := bind_eq_ok hafter
  obtain ⟨conn',hflush,rfl⟩ := onStream_eq_ok h₃
  cases hafter
  obtain ⟨fields,hread,-⟩ : ∃ fields, Http.readResponse (utf8 (r.render addHsts req.origin)) =
      some (⟨statusLine r.status,fields,utf8 r.body⟩,[]) ∧ _ := readResponse_render hfixed
  refine ⟨r,w₁,fields,_,h₁,hfixed.1,rfl,?_,hread⟩
  calc conn'.output = conn.output := RawConn.flush_output hflush
    _ = w₁.stream.output ++ utf8 (r.render addHsts req.origin) := RawConn.writeAll_output hwrite
    _ = _ := by rw [houtput]

/-- What is sent is one response with the fixed fields if and only if the request does not ask for the
options or every line feed in its `Access-Control-Request-Headers` begins a folded line. -/
theorem handle_response_iff (http : HttpEnv) (keys : List SecretKey) (connId : Nat) (head : Text)
    (addHsts : Bool) {w w' : World RawConn} {summary : Text}
    (h : handle http keys connId head addHsts w = .ok summary w') : ∃ req bytes,
      parseHead head = .ok req ∧ w'.stream.output = w.stream.output ++ bytes ∧
        (IsIpResponse http addHsts req.origin req.method bytes ↔
          (req.method = "OPTIONS" → FoldsOnly req.requestHeaders)) := by
  obtain ⟨req,r,hparse,hout,hreply⟩ := handle_ok h
  refine ⟨req,_,hparse,hout,?_⟩
  by_cases hoptions : req.method = "OPTIONS"
  · rw [if_pos hoptions] at hreply
    rw [hreply,hoptions,isIpResponse_options]
    simp
  · rw [if_neg hoptions] at hreply
    exact iff_of_true (isIpResponse_fixed hreply) fun hcontra => absurd hcontra hoptions

def goldenHttp : HttpEnv where
  env := goldenEnv
  fromSlice := goldenParser
  errorBody message := "\x7b\"error\":[\"".toList ++ jsonEscape message ++ "\"]\x7d".toList
  sha1 _ := List.replicate 20 0
  branch := "main"
  fromRawSocket conn := ⟨[],.protocol "Connection closed normally",[],[],conn.peer⟩

def preflight : Text :=
  "OPTIONS /ip HTTP/1.1\r\nOrigin: a\r\nAccess-Control-Request-Headers: Content-Type\r\n\r\n"

/-- A preflight request with a header value that holds a line feed. -/
def splittingPreflight : Text :=
  "OPTIONS /ip HTTP/1.1\r\nAccess-Control-Request-Headers: X\nSet-Cookie: a=b\r\n\r\n"

private def handleGolden (head : Text) : EStateM.Result Stop (World RawConn) Text :=
  handle goldenHttp [goldenKey] 1 head false (World.start goldenConn id fun _ => 1700000090)

theorem handle_response_iff_golden : ∃ req, parseHead preflight = .ok req ∧
    IsIpResponse goldenHttp false req.origin req.method (final (handleGolden preflight)).stream.output := by
  have hvalue : ∀ req, parseHead preflight = .ok req → req.requestHeaders = "Content-Type" := by
    intro req h
    have heq : (parseHead preflight).toOption.map RequestHead.requestHeaders = some "Content-Type".toList := by
      decide +kernel
    rw [h] at heq
    exact Option.some.inj heq
  have hfolds : FoldsOnly "Content-Type" := by
    intro a b hab
    have hmem : '\n' ∈ "Content-Type".toList := by
      rw [hab]
      simp
    exact absurd hmem (by decide)
  have hok : (match handleGolden preflight with | .ok _ _ => true | .error _ _ => false) = true := by
    decide +kernel
  cases hrun : handleGolden preflight with
  | error e w' =>
    rw [hrun] at hok
    cases hok
  | ok summary w' =>
    obtain ⟨req,bytes,hparse,hout,hiff⟩ := handle_response_iff goldenHttp [goldenKey] 1 preflight false hrun
    have hbytes : bytes = w'.stream.output := hout.symm
    refine ⟨req,hparse,?_⟩
    rw [final_ok,← hbytes]
    apply hiff.mpr
    intro _
    rw [hvalue req hparse]
    exact hfolds

/-- The line feed in the header value ends its line, and the rest is read as a field. -/
theorem handle_splits_response : ∃ summary w' req r, handleGolden splittingPreflight = .ok summary w' ∧
    parseHead splittingPreflight = .ok req ∧ ¬IsIpResponse goldenHttp false req.origin req.method w'.stream.output ∧
      Http.readResponse w'.stream.output = some (r,[]) ∧ (utf8 "Set-Cookie",utf8 "a=b") ∈ r.fields := by
  have hreq : (parseHead splittingPreflight).toOption.map (fun req => (req.method,req.requestHeaders)) =
      some ("OPTIONS".toList,"X\nSet-Cookie: a=b".toList) := by
    decide +kernel
  have hread : (Http.readResponse (final (handleGolden splittingPreflight)).stream.output).any (fun p =>
      (utf8 "Set-Cookie",utf8 "a=b") ∈ p.1.fields ∧ p.2 = []) = true := by
    decide +kernel
  have hok : (match handleGolden splittingPreflight with | .ok _ _ => true | .error _ _ => false) = true := by
    decide +kernel
  cases hrun : handleGolden splittingPreflight with
  | error e w' =>
    rw [hrun] at hok
    cases hok
  | ok summary w' =>
    obtain ⟨req,reply,hparse,hout,hreply⟩ := handle_ok hrun
    rw [hparse] at hreq
    obtain ⟨hmethod,hvalue⟩ := Prod.mk.inj (Option.some.inj hreq)
    rw [hrun,Option.any_eq_true] at hread
    obtain ⟨⟨r,rest⟩,hr,hfield⟩ := hread
    obtain ⟨hfield,hrest⟩ := of_decide_eq_true hfield
    dsimp only at hrest
    rw [hrest] at hr
    refine ⟨summary,w',req,r,rfl,hparse,?_,hr,hfield⟩
    have hbytes : w'.stream.output = utf8 ((optionsReply req).render false req.origin) := by
      rw [if_pos hmethod] at hreply
      rw [hout,hreply]
      rfl
    rw [hbytes,hmethod,isIpResponse_options,hvalue]
    intro hfolds
    have hnext := hfolds "X".toList "Set-Cookie: a=b".toList rfl
    exact absurd hnext (by decide)

end Rmbtd
