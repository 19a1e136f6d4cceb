import Rmbtd.Stream.HeadReader

/-!
# The upgrade a request asks for

A request asks for an upgrade in its `Upgrade` header lines. The code does not read these lines: it
searches the whole head, in lower case, for a fixed spelling of one.
-/

namespace Rmbtd

open Effect Session

/-! ## Texts without the separator -/

section
variable {α : Type}

private theorem prefix_of_disjoint {pat a sep b : List α} (hsep : sep ≠ []) (hdisjoint : ∀ c ∈ pat, c ∉ sep)
    (h : pat <+: a ++ (sep ++ b)) : pat <+: a := by
  induction pat generalizing a with
  | nil => exact List.nil_prefix
  | cons c pat ih =>
    cases a with
    | nil =>
      obtain ⟨d,sep,rfl⟩ := List.exists_cons_of_ne_nil hsep
      simp only [List.nil_append,List.cons_append,List.cons_prefix_cons] at h
      exact absurd (h.1 ▸ List.mem_cons_self) (hdisjoint c List.mem_cons_self)
    | cons d a =>
      simp only [List.cons_append,List.cons_prefix_cons] at h ⊢
      exact ⟨h.1,ih (fun e he => hdisjoint e (List.mem_cons_of_mem c he)) h.2⟩

private theorem infix_of_disjoint {pat sep b : List α} (hpat : pat ≠ []) (hdisjoint : ∀ c ∈ pat, c ∉ sep)
    (h : pat <:+: sep ++ b) : pat <:+: b := by
  induction sep with
  | nil => exact h
  | cons d sep ih =>
    rcases List.infix_cons_iff.mp h with hinitial | hinfix
    · obtain ⟨c,pat,rfl⟩ := List.exists_cons_of_ne_nil hpat
      have hc : c = d := (List.cons_prefix_cons.mp hinitial).1
      exact absurd (hc ▸ List.mem_cons_self) (hdisjoint c List.mem_cons_self)
    · exact ih (fun c hc hmem => hdisjoint c hc (List.mem_cons_of_mem d hmem)) hinfix

theorem infix_append_sep {pat sep : List α} (hpat : pat ≠ []) (hsep : sep ≠ [])
    (hdisjoint : ∀ c ∈ pat, c ∉ sep) (a b : List α) :
    pat <:+: a ++ (sep ++ b) ↔ pat <:+: a ∨ pat <:+: b := by
  constructor
  · intro h
    induction a with
    | nil => exact Or.inr (infix_of_disjoint hpat hdisjoint h)
    | cons c a ih =>
      rcases List.infix_cons_iff.mp h with hinitial | hinfix
      · exact Or.inl (prefix_of_disjoint hsep hdisjoint hinitial).isInfix
      · exact (ih hinfix).imp_left fun h => List.infix_cons_iff.mpr (Or.inr h)
  · rintro (h | h)
    · exact h.trans (List.prefix_append a _).isInfix
    · exact h.trans ((List.suffix_append sep b).trans (List.suffix_append a _)).isInfix

end

theorem infix_splitn {pat sep : Text} (f : Char → Char) (hpat : pat ≠ []) (hsep : sep ≠ [])
    (hdisjoint : ∀ c ∈ pat, c ∉ sep.map f) (n : Nat) (s : Text) :
    pat <:+: s.map f ↔ ∃ piece ∈ splitn (n+1) sep s, pat <:+: piece.map f := by
  induction n generalizing s with
  | zero => simp [splitn]
  | succ n ih =>
    rw [splitn]
    cases h : splitOnce sep s with
    | none => simp
    | some p =>
      obtain ⟨a,b⟩ := p
      have hs : s.map f = a.map f ++ (sep.map f ++ b.map f) := by
        rw [splitOnce_eq sep s a b h]
        simp
      rw [hs,infix_append_sep hpat (by simpa using hsep) hdisjoint,ih b]
      simp

theorem contains_iff {pat s : Text} : contains pat s = true ↔ pat <:+: s := by
  rw [contains,Option.isSome_iff_ne_none,ne_eq,splitOnce_eq_none,not_not]

/-! ## The specification -/

/-- The connection goes on as a WebSocket or as plain RMBT, or the client is told to upgrade. -/
inductive Choice
  | webSocket
  | rmbt
  | upgradeRequired
deriving DecidableEq

/-- Whether a line is an `Upgrade` header that lists the protocol, in any letter case. -/
def listsProtocol (protocol line : Text) : Bool :=
  match splitOnce ":" line with
  | none => false
  | some (name,value) => toAsciiLowercase name = "upgrade" &&
    (splitAll "," value).any fun item => toAsciiLowercase (trim (item.takeWhile (· ≠ '/'))) = protocol

/-- Whether some header line of the request asks for the protocol. -/
def listed (protocol req : Text) : Bool := (splitAll "\r\n" req).tail.any (listsProtocol protocol)

/-- What the header lines ask for. -/
def asked (req : Text) : Choice :=
  if listed "websocket" req then .webSocket
  else if listed "rmbt" req then .rmbt
  else .upgradeRequired

/-! ## The code -/

section
variable {σ : Type} [HttpTransport σ] (http : HttpEnv) (req : Text) (addHsts : Bool)

def carryOut : Choice → Session σ Upgrade
  | .webSocket => webSocketHandshake http req addHsts
  | .rmbt => rawHandshake addHsts
  | .upgradeRequired => requireUpgrade http req addHsts

end

def phrase (protocol : Text) : Text := "upgrade: ".toList ++ protocol

/-- What the code chooses. -/
def chosen (req : Text) : Choice :=
  if contains (phrase "websocket") (toAsciiLowercase req) then .webSocket
  else if contains (phrase "rmbt") (toAsciiLowercase req) then .rmbt
  else .upgradeRequired

/-- Whether the phrase stands in some line of the head, be it the request line. -/
def spelled (protocol req : Text) : Bool :=
  (splitAll "\r\n" req).any fun line => contains (phrase protocol) (toAsciiLowercase line)

/-- The phrase stands elsewhere: no `Upgrade` header lists the protocol. -/
def Strays (protocol req : Text) : Prop := spelled protocol req ∧ ¬listed protocol req

/-- An `Upgrade` header lists the protocol in another spelling. -/
def Respelled (protocol req : Text) : Prop := listed protocol req ∧ ¬spelled protocol req

/-- The head asks for its upgrade in the spelling of the code, and uses it for nothing else. The
code does not look for the second protocol where it finds the first. -/
structure PlainUpgrade (req : Text) : Prop where
  webSocket : ¬Strays "websocket" req ∧ ¬Respelled "websocket" req
  rmbt : ¬spelled "websocket" req → ¬Strays "rmbt" req ∧ ¬Respelled "rmbt" req

theorem spelled_iff {protocol req : Text}
    (hprotocol : (phrase protocol).all fun c => c ≠ '\r' ∧ c ≠ '\n') :
    spelled protocol req = contains (phrase protocol) (toAsciiLowercase req) := by
  have hne : phrase protocol ≠ [] := List.append_ne_nil_of_left_ne_nil (by decide) protocol
  have hdisjoint : ∀ c ∈ phrase protocol, c ∉ ("\r\n".toList).map Char.toLower := by
    intro c hc hmem
    have hline : c = '\r' ∨ c = '\n' := by simpa using hmem
    have hc : c ≠ '\r' ∧ c ≠ '\n' := of_decide_eq_true (List.all_eq_true.mp hprotocol c hc)
    exact hline.elim hc.1 hc.2
  have hsep : ("\r\n".toList : Text) ≠ [] := by simp
  have hlines := infix_splitn Char.toLower hne hsep hdisjoint req.length req
  rw [Bool.eq_iff_iff,contains_iff,toAsciiLowercase,hlines]
  simp only [spelled,splitAll,List.any_eq_true,contains_iff,toAsciiLowercase]

theorem chosen_eq (req : Text) : chosen req =
    if spelled "websocket" req then .webSocket
    else if spelled "rmbt" req then .rmbt
    else .upgradeRequired := by
  rw [chosen,spelled_iff (by decide),spelled_iff (by decide)]

private theorem spelled_eq_listed {protocol req : Text} :
    (¬Strays protocol req ∧ ¬Respelled protocol req) ↔ spelled protocol req = listed protocol req := by
  unfold Strays Respelled
  cases spelled protocol req <;> cases listed protocol req <;> decide

/-- The choices agree where the phrase and the header lines do. -/
theorem chosen_eq_asked {req : Text} : chosen req = asked req ↔ PlainUpgrade req := by
  have hplain : PlainUpgrade req ↔ spelled "websocket" req = listed "websocket" req ∧
      (¬spelled "websocket" req → spelled "rmbt" req = listed "rmbt" req) :=
    ⟨fun h => ⟨spelled_eq_listed.mp h.webSocket,fun hno => spelled_eq_listed.mp (h.rmbt hno)⟩,
      fun h => ⟨spelled_eq_listed.mpr h.1,fun hno => spelled_eq_listed.mpr (h.2 hno)⟩⟩
  rw [hplain,chosen_eq,asked]
  cases spelled "websocket" req <;> cases listed "websocket" req <;> cases spelled "rmbt" req <;>
    cases listed "rmbt" req <;> decide

/-! ## Runs -/

section
variable (http : HttpEnv) (keys : List SecretKey) (connId : Nat) (addHsts : Bool)

theorem answer_get {σ : Type} [HttpTransport σ] {req : Text}
    (hip : ipCheckMatches (requestTarget req) = false)
    (hversion : versionMatches (requestTarget req) = false)
    (hget : List.isPrefixOf "GET ".toList req = true) :
    (answer http keys connId req addHsts : Session σ Upgrade) =
      carryOut http req addHsts (chosen req) := by
  have hrequest : (answer http keys connId req addHsts : Session σ Upgrade) =
      if contains (phrase "websocket") (toAsciiLowercase req) then webSocketHandshake http req addHsts
      else if contains (phrase "rmbt") (toAsciiLowercase req) then rawHandshake addHsts
      else requireUpgrade http req addHsts := by
    rw [answer,if_neg (by simp [hip]),if_neg (by simp [hversion]),if_neg (not_not_intro hget)]
    rfl
  rw [hrequest,chosen]
  split
  · rfl
  split
  · rfl
  · rfl

/-- What a connection that takes every write shows of the choice. -/
def Shows : Choice → Except Stop Upgrade → Prop
  | .webSocket, r => r = .ok .webSocket ∨ r = .error (.io missingKey)
  | .rmbt, r => r = .ok .raw
  | .upgradeRequired, r => r = .error (.io noUpgradeHeader)

theorem Shows.unique {c c' : Choice} {r : Except Stop Upgrade} (h : Shows c r) (h' : Shows c' r) :
    c = c' := by
  cases c <;> cases c' <;> simp_all [Shows,missingKey,noUpgradeHeader]

theorem not_shows_requestTooLarge (c : Choice) : ¬Shows c (.error (.io requestTooLarge)) := by
  cases c <;> simp [Shows,requestTooLarge,missingKey,noUpgradeHeader]

private theorem triple_writeAll (data : Bytes) :
    Triple (fun w : World RawConn => w.stream.faults = []) (onStream (HttpTransport.writeAll data))
      (fun _ w => w.stream.faults = []) fun _ _ => False := by
  intro w h
  have hwrite : HttpTransport.writeAll data w.stream =
      .ok () { w.stream with output := w.stream.output ++ data } := RawConn.writeAll_faultless h data
  rw [onStream_ok hwrite]
  exact h

private theorem triple_flush :
    Triple (fun w : World RawConn => w.stream.faults = []) (onStream HttpTransport.flush)
      (fun _ _ => True) fun _ _ => False := by
  intro w h
  have hflush : HttpTransport.flush w.stream = .ok () { w.stream with faults := [] } := by
    change RawConn.flush w.stream = _
    simp [RawConn.flush,h]
  rw [onStream_ok hflush]
  trivial

private theorem carryOut_spec (req : Text) (c : Choice) :
    Triple (fun w : World RawConn => w.stream.faults = []) (carryOut http req addHsts c)
      (fun u _ => Shows c (.ok u)) fun e _ => Shows c (.error e) := by
  cases c with
  | webSocket =>
    rw [carryOut,webSocketHandshake]
    cases webSocketKey req with
    | none => exact .throw fun _ _ => Or.inr rfl
    | some key =>
      refine .bind ((triple_writeAll _).mono (fun _ h => h) (fun _ _ h => h) fun _ _ h => h.elim)
        fun _ => .bind (triple_flush.mono (fun _ h => h) (fun _ _ h => h) fun _ _ h => h.elim)
          fun _ => .pure fun _ _ => Or.inl rfl
  | rmbt =>
    exact .bind ((triple_writeAll _).mono (fun _ h => h) (fun _ _ h => h) fun _ _ h => h.elim)
      fun _ => .pure fun _ _ => rfl
  | upgradeRequired => exact fun _ _ => rfl

theorem shows_carryOut (req : Text) (c : Choice) {w : World RawConn} (h : w.stream.faults = []) :
    Shows c (outcome (carryOut http req addHsts c w)) := by
  have hspec := carryOut_spec http addHsts req c w h
  cases hrun : carryOut http req addHsts c w with
  | ok u w' =>
    rw [hrun] at hspec
    exact hspec
  | error e w' =>
    rw [hrun] at hspec
    exact hspec

/-- For a `GET` request with another target the code carries out what the header lines ask for if
the head is not too long and plain. -/
theorem detectAndUpgrade_asked_iff {head : Bytes} (hhead : IsHead head head)
    (hget : List.isPrefixOf "GET ".toList (fromUtf8Lossy head) = true)
    (hip : ipCheckMatches (requestTarget (fromUtf8Lossy head)) = false)
    (hversion : versionMatches (requestTarget (fromUtf8Lossy head)) = false) :
    (∀ (w : World RawConn) (rest : Bytes), w.stream.input = head ++ rest →
      detectAndUpgrade http keys connId addHsts w =
        carryOut http (fromUtf8Lossy head) addHsts (asked (fromUtf8Lossy head))
          { w with stream := { w.stream with input := rest } }) ↔
      head.length ≤ maxHead + 1 ∧ PlainUpgrade (fromUtf8Lossy head) := by
  have htaken (w : World RawConn) (rest : Bytes) (hlen : head.length ≤ maxHead + 1)
      (hinput : w.stream.input = head ++ rest) : detectAndUpgrade http keys connId addHsts w =
        carryOut http (fromUtf8Lossy head) addHsts (chosen (fromUtf8Lossy head))
          { w with stream := { w.stream with input := rest } } := by
    have hread := readHead_takes (hhead.append hinput) hlen hinput
    rw [detectAndUpgrade,bind_ok (onStream_ok hread),answer_get http keys connId addHsts hip hversion hget]
  constructor
  · intro h
    obtain ⟨w,hinput,hfaults⟩ : ∃ w : World RawConn, w.stream.input = head ++ [] ∧ w.stream.faults = [] :=
      ⟨.start ⟨head,none,[],[],none⟩ id fun _ => 0,(List.append_nil head).symm,rfl⟩
    have hasked := shows_carryOut http addHsts (fromUtf8Lossy head) (asked (fromUtf8Lossy head))
      (w := { w with stream := { w.stream with input := [] } }) hfaults
    rw [← h w [] hinput] at hasked
    have hlen : head.length ≤ maxHead + 1 := by
      by_contra hlong
      have hno : ¬∃ head', IsHead head' w.stream.input ∧ head'.length ≤ maxHead + 1 := by
        rintro ⟨head',hhead',hlen⟩
        rw [hhead'.unique (hhead.append hinput)] at hlen
        exact hlong hlen
      have hlong : maxHead < w.stream.input.length := by
        rw [hinput,List.append_nil]
        omega
      rw [detectAndUpgrade,bind_error (onStream_error (readHead_fails hno)),if_pos hlong] at hasked
      exact not_shows_requestTooLarge _ hasked
    refine ⟨hlen,chosen_eq_asked.mp (Shows.unique ?_ hasked)⟩
    rw [htaken w [] hlen hinput]
    exact shows_carryOut http addHsts _ _ hfaults
  · rintro ⟨hlen,hplain⟩ w rest hinput
    rw [htaken w rest hlen hinput,chosen_eq_asked.mpr hplain]

end

/-- The header line without a blank. -/
def tightHead : Bytes := utf8 "GET / HTTP/1.1\r\nUpgrade:websocket\r\nSec-WebSocket-Key: a\r\n\r\n"

/-- Another header, whose name ends in `Upgrade`. -/
def strayHead : Bytes := utf8 "GET / HTTP/1.1\r\nX-Upgrade: rmbt\r\n\r\n"

def plainHead : Bytes := utf8 "GET / HTTP/1.1\r\nUpgrade: websocket\r\nSec-WebSocket-Key: a\r\n\r\n"

def headConn (head : Bytes) : World RawConn := .start ⟨head,none,[],[],none⟩ id fun _ => 0

theorem detectAndUpgrade_misread :
    (asked (fromUtf8Lossy tightHead) = .webSocket ∧
      outcome (detectAndUpgrade goldenHttp [goldenKey] 1 false (headConn tightHead)) =
        .error (.io noUpgradeHeader)) ∧
    asked (fromUtf8Lossy strayHead) = .upgradeRequired ∧
      outcome (detectAndUpgrade goldenHttp [goldenKey] 1 false (headConn strayHead)) = .ok .raw :=
  ⟨⟨by decide +kernel,by decide +kernel⟩,by decide +kernel,by decide +kernel⟩

theorem detectAndUpgrade_asked_iff_golden :
    let conn : RawConn := ⟨plainHead ++ utf8 "message",none,[],[],none⟩
    let w : World RawConn := .start conn id fun _ => 0
    detectAndUpgrade goldenHttp [goldenKey] 1 false w =
        carryOut goldenHttp (fromUtf8Lossy plainHead) false .webSocket
          { w with stream := { conn with input := utf8 "message" } } ∧
      outcome (detectAndUpgrade goldenHttp [goldenKey] 1 false w) = .ok .webSocket := by
  intro conn w
  have hasked : asked (fromUtf8Lossy plainHead) = .webSocket := by decide +kernel
  have hplain : PlainUpgrade (fromUtf8Lossy plainHead) := chosen_eq_asked.mp (by decide +kernel)
  have hcarries := (detectAndUpgrade_asked_iff goldenHttp [goldenKey] 1 false (by decide +kernel)
    (by decide +kernel) (by decide +kernel) (by decide +kernel)).mpr ⟨by decide +kernel,hplain⟩ w (utf8 "message") rfl
  rw [hasked] at hcarries
  refine ⟨hcarries,?_⟩
  rw [hcarries]
  decide +kernel

end Rmbtd
