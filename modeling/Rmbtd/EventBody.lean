import Rmbtd.Events
import Rmbtd.Library.Json

/-!
# Event bodies

The JSON builder of `events.rs` and the bodies of the `auth` and `close` events. A float enters as
the text `format!("{v:.3}")` gives it, which for a finite value is a decimal with three places.
-/

namespace Rmbtd

/-- A decimal with three places. -/
structure Fixed3 where
  negative : Bool
  whole : Nat
  thousandths : Fin 1000
deriving DecidableEq

def Fixed3.places (v : Fixed3) : Text :=
  let n := v.thousandths.val
  [Nat.digitChar (n / 100),Nat.digitChar (n / 10 % 10),Nat.digitChar (n % 10)]

def Fixed3.toText (v : Fixed3) : Text :=
  (if v.negative then ['-'] else []) ++ (natText v.whole ++ '.'::v.places)

private def unicodeEscape (c : Char) : Text :=
  ['\\','u','0','0',Nat.digitChar (c.toNat / 16),Nat.digitChar (c.toNat % 16)]

private def escapeChar (c : Char) : Text :=
  if c = '"' then "\\\""
  else if c = '\\' then "\\\\"
  else if c = '\n' then "\\n"
  else if c = '\r' then "\\r"
  else if c = '\t' then "\\t"
  else if c.toNat < 0x20 then unicodeEscape c
  else [c]

/-- What `json_escape` appends for a text. -/
def jsonEscape (s : Text) : Text := s.flatMap escapeChar

/-- The object builder `Json`: the text built so far. -/
structure JsonBuilder where
  text : Text
deriving DecidableEq

namespace JsonBuilder

def new : JsonBuilder := ⟨"\x7b"⟩

def sep (j : JsonBuilder) : JsonBuilder :=
  if j.text.getLast? = some '\x7b' then j else ⟨j.text ++ ","⟩

def key (k : Text) (j : JsonBuilder) : JsonBuilder := ⟨j.text ++ "\"" ++ jsonEscape k ++ "\":"⟩

def str (k v : Text) (j : JsonBuilder) : JsonBuilder :=
  ⟨(j.sep.key k).text ++ "\"" ++ jsonEscape v ++ "\""⟩

def int (k : Text) (v : Int64) (j : JsonBuilder) : JsonBuilder :=
  ⟨(j.sep.key k).text ++ intText v.toInt⟩

def bool (k : Text) (v : Bool) (j : JsonBuilder) : JsonBuilder :=
  ⟨(j.sep.key k).text ++ boolText v⟩

def float (k : Text) (v : Fixed3) (j : JsonBuilder) : JsonBuilder :=
  ⟨(j.sep.key k).text ++ v.toText⟩

def done (j : JsonBuilder) : Text := j.text ++ "\x7d"

end JsonBuilder

inductive BuilderCall
  | str (k v : Text)
  | int (k : Text) (v : Int64)
  | bool (k : Text) (v : Bool)
  | float (k : Text) (v : Fixed3)
deriving DecidableEq

namespace BuilderCall

def apply (j : JsonBuilder) : BuilderCall → JsonBuilder
  | str k v => j.str k v
  | int k v => j.int k v
  | bool k v => j.bool k v
  | float k v => j.float k v

def name : BuilderCall → Text
  | str k _ => k
  | int k _ => k
  | bool k _ => k
  | float k _ => k

def value : BuilderCall → Json
  | str _ v => .string v
  | int _ v => .number (intText v.toInt)
  | bool _ v => .bool v
  | float _ v => .number v.toText

def member (c : BuilderCall) : Text × Json := (c.name,c.value)

def valueText : BuilderCall → Text
  | str _ v => '"'::(jsonEscape v ++ ['"'])
  | int _ v => intText v.toInt
  | bool _ v => boolText v
  | float _ v => v.toText

/-- What a call appends after the separator. -/
def memberText (c : BuilderCall) : Text := '"'::(jsonEscape c.name ++ '"':: ':'::c.valueText)

end BuilderCall

/-- The text a sequence of calls builds. -/
def buildJson (calls : List BuilderCall) : Text := (calls.foldl BuilderCall.apply .new).done

/-! ## Strings -/

open JsonText

private theorem readString_escapeChar (c : Char) (rest : Text) :
    readString (escapeChar c ++ rest) = (readString rest).map fun p => (c::p.1,p.2) := by
  unfold escapeChar
  split
  · next h => subst h; exact readString_escape rfl rest
  split
  · next h => subst h; exact readString_escape rfl rest
  split
  · next h => subst h; exact readString_escape rfl rest
  split
  · next h => subst h; exact readString_escape rfl rest
  split
  · next h => subst h; exact readString_escape rfl rest
  split
  · next h =>
    have hall : ∀ n < 32, codeUnit '0' '0' (Nat.digitChar (n / 16)) (Nat.digitChar (n % 16)) = some n := by
      decide
    have hread := readString_unicode (hall c.toNat h) (by omega) rest
    rw [Char.ofNat_toNat] at hread
    exact hread
  · next hquote hslash _ _ _ hc => exact readString_char hquote hslash (by omega) rest

/-- A reader undoes the escaping. -/
theorem readString_jsonEscape (s rest : Text) :
    readString (jsonEscape s ++ '"'::rest) = some (s,rest) := by
  induction s with
  | nil => exact readString_quote rest
  | cons c s ih =>
    rw [jsonEscape,List.flatMap_cons,List.append_assoc,readString_escapeChar]
    rw [jsonEscape] at ih
    rw [ih]
    rfl

private theorem printable_of_all {t : Text} (h : t.all fun c => 0x20 ≤ c.toNat) :
    ∀ c ∈ t, 0x20 ≤ c.toNat := by simpa using h

theorem jsonEscape_printable {s : Text} {c : Char} (hc : c ∈ jsonEscape s) : 0x20 ≤ c.toNat := by
  obtain ⟨d,-,hc⟩ := List.mem_flatMap.mp hc
  unfold escapeChar at hc
  split at hc
  · exact printable_of_all (by decide) c hc
  split at hc
  · exact printable_of_all (by decide) c hc
  split at hc
  · exact printable_of_all (by decide) c hc
  split at hc
  · exact printable_of_all (by decide) c hc
  split at hc
  · exact printable_of_all (by decide) c hc
  split at hc
  · next h =>
    have hall : ∀ n < 32, ['\\','u','0','0',Nat.digitChar (n / 16),Nat.digitChar (n % 16)].all
        fun c => 0x20 ≤ c.toNat := by decide
    exact printable_of_all (hall d.toNat h) c hc
  · next h =>
    rw [List.mem_singleton.mp hc]
    omega

/-! ## Values -/

private theorem Fixed3.places_digits (v : Fixed3) : ∀ c ∈ v.places, c.isDigit := by
  have hall : ∀ d < 10, (Nat.digitChar d).isDigit := by decide
  have hlt := v.thousandths.isLt
  simp only [places,List.forall_mem_cons,List.not_mem_nil,false_implies,implies_true,and_true]
  exact ⟨hall _ (by omega),hall _ (by omega),hall _ (by omega)⟩

theorem Fixed3.readNumber_toText (v : Fixed3) {rest : Text} (h : EndsNumber rest) :
    readNumber (v.toText ++ rest) = some (v.toText,rest) := by
  have hplaces := readUnsignedNumber_fixed v.whole v.places_digits (by simp [places]) h
  have hsigned := readNumber_signed v.negative (t := '.'::(v.places ++ rest)) hplaces
  rw [toText,List.append_assoc,List.append_assoc]
  exact hsigned

private theorem readValue_of_readNumber {t rest : Text} (fuel : Nat)
    (hstart : ∃ c s, t = c::s ∧ (c = '-' ∨ c.isDigit))
    (h : readNumber (t ++ rest) = some (t,rest)) :
    readValue (fuel+1) (t ++ rest) = some (.number t,rest) := by
  obtain ⟨c,s,rfl,hc⟩ := hstart
  rw [List.cons_append,readValue_number fuel hc,← List.cons_append,h]
  rfl

private theorem natText_start (n : Nat) (t : Text) :
    ∃ c s, natText n ++ t = c::s ∧ (c = '-' ∨ c.isDigit) := by
  cases hn : natText n with
  | nil => exact absurd hn (natText_ne_nil n)
  | cons c ds => exact ⟨c,ds ++ t,rfl,Or.inr (natText_isDigit (n := n) (by simp [hn]))⟩

private theorem intText_start (i : Int) : ∃ c s, intText i = c::s ∧ (c = '-' ∨ c.isDigit) := by
  cases i with
  | ofNat n =>
    have h := natText_start n []
    rw [List.append_nil] at h
    exact h
  | negSucc n => exact ⟨'-',natText (n+1),rfl,Or.inl rfl⟩

private theorem Fixed3.toText_start (v : Fixed3) :
    ∃ c s, v.toText = c::s ∧ (c = '-' ∨ c.isDigit) := by
  unfold toText
  cases v.negative with
  | true => exact ⟨'-',_,rfl,Or.inl rfl⟩
  | false => exact natText_start v.whole _

private theorem Fixed3.toText_chars {v : Fixed3} {c : Char} (hc : c ∈ v.toText) :
    c.isDigit ∨ c = '-' ∨ c = '.' := by
  simp only [toText,List.mem_append,List.mem_cons] at hc
  rcases hc with hc | hc | hc | hc
  · cases hn : v.negative with
    | true => simp [hn] at hc; exact Or.inr (Or.inl hc)
    | false => simp [hn] at hc
  · exact Or.inl (natText_isDigit hc)
  · exact Or.inr (Or.inr hc)
  · exact Or.inl (v.places_digits c hc)

namespace BuilderCall

private theorem reads_value (c : BuilderCall) (fuel : Nat) (rest : Text) (h : EndsNumber rest) :
    readValue (fuel+1) (c.valueText ++ rest) = some (c.value,rest) := by
  cases c with
  | str k v =>
    simp only [valueText,value]
    rw [List.cons_append,List.append_assoc,readValue_string,List.singleton_append,
      readString_jsonEscape]
    rfl
  | int k v => exact readValue_of_readNumber fuel (intText_start _) (readNumber_intText _ h)
  | bool k v => exact readValue_bool fuel v rest
  | float k v => exact readValue_of_readNumber fuel v.toText_start (v.readNumber_toText h)

private def written (c : BuilderCall) : WrittenMember where
  nameText := jsonEscape c.name
  valueText := c.valueText
  name := c.name
  value := c.value
  reads_name := readString_jsonEscape c.name
  reads_value := c.reads_value

theorem apply_text (j : JsonBuilder) (c : BuilderCall) :
    (apply j c).text = j.sep.text ++ c.memberText := by
  cases c <;> simp [apply,memberText,name,valueText,JsonBuilder.str,JsonBuilder.int,
    JsonBuilder.bool,JsonBuilder.float,JsonBuilder.key]

private theorem valueText_getLast (c : BuilderCall) :
    c.valueText ≠ [] ∧ c.valueText.getLast? ≠ some '\x7b' := by
  have hbrace : ¬ '\x7b'.isDigit := by decide
  have hmem {s : Text} (hs : '\x7b' ∉ s) : s.getLast? ≠ some '\x7b' :=
    fun hlast => hs (List.mem_of_getLast? hlast)
  cases c with
  | str k v =>
    refine ⟨by simp [valueText],?_⟩
    rw [valueText,← List.cons_append,List.getLast?_concat]
    decide
  | int k v =>
    constructor
    · obtain ⟨c,s,h,-⟩ := intText_start v.toInt
      simp [valueText,h]
    · apply hmem
      intro h
      rcases intText_chars h with h | h
      · exact hbrace h
      · revert h; decide
  | bool k v =>
    have h : boolText v ≠ [] ∧ (boolText v).getLast? ≠ some '\x7b' := by cases v <;> decide
    exact h
  | float k v =>
    constructor
    · obtain ⟨c,s,h,-⟩ := v.toText_start
      simp [valueText,h]
    · apply hmem
      intro h
      rcases Fixed3.toText_chars h with h | h | h
      · exact hbrace h
      · revert h; decide
      · revert h; decide

private theorem memberText_getLast (c : BuilderCall) (t : Text) :
    (t ++ c.memberText).getLast? ≠ some '\x7b' := by
  obtain ⟨hne,hlast⟩ := c.valueText_getLast
  have hsplit : t ++ c.memberText = t ++ ('"'::(jsonEscape c.name ++ ['"',':'])) ++ c.valueText := by
    simp [memberText]
  rw [hsplit,List.getLast?_append_of_ne_nil _ hne]
  exact hlast

private theorem foldl_apply (calls : List BuilderCall) (j : JsonBuilder)
    (hj : j.text.getLast? ≠ some '\x7b') :
    (calls.foldl apply j).text = j.text ++ calls.flatMap fun c => ','::c.memberText := by
  induction calls generalizing j with
  | nil => simp
  | cons c calls ih =>
    have happly : (apply j c).text = j.text ++ ','::c.memberText := by
      rw [apply_text,JsonBuilder.sep,if_neg hj]
      simp
    have hlast : (apply j c).text.getLast? ≠ some '\x7b' := by
      rw [apply_text]
      exact c.memberText_getLast _
    rw [List.foldl_cons,ih (apply j c) hlast,happly,List.flatMap_cons,List.append_assoc]

end BuilderCall

theorem buildJson_cons (c : BuilderCall) (calls : List BuilderCall) :
    buildJson (c::calls) =
      '\x7b'::(c.memberText ++ ((calls.flatMap fun c => ','::c.memberText) ++ ['\x7d'])) := by
  have hfirst : (BuilderCall.apply .new c).text = '\x7b'::c.memberText := by
    rw [BuilderCall.apply_text]
    rfl
  have hlast : (BuilderCall.apply .new c).text.getLast? ≠ some '\x7b' := by
    rw [hfirst]
    exact c.memberText_getLast ['\x7b']
  rw [buildJson,JsonBuilder.done,List.foldl_cons,BuilderCall.foldl_apply calls _ hlast,hfirst]
  simp

/-- Every sequence of calls builds an object with exactly the members asked for, in order. -/
theorem parseJson_buildJson (calls : List BuilderCall) :
    parseJson (buildJson calls) = some (.object (calls.map BuilderCall.member)) := by
  cases calls with
  | nil => exact parseJson_empty
  | cons c calls =>
    have h := parseJson_object c.written (calls.map BuilderCall.written)
    rw [buildJson_cons]
    simp only [List.flatMap_map,List.map_cons,List.map_map] at h
    exact h

private theorem valueText_printable {call : BuilderCall} {c : Char} (hc : c ∈ call.valueText) :
    0x20 ≤ c.toNat := by
  have hdigit (h : c.isDigit) : 0x20 ≤ c.toNat := by
    have h := Char.isDigit_iff_toNat.mp h
    simp only [Char.reduceToNat] at h
    omega
  cases call with
  | str k v =>
    simp only [BuilderCall.valueText,List.mem_cons,List.mem_append,List.not_mem_nil,or_false] at hc
    rcases hc with rfl | hc | rfl
    · decide
    · exact jsonEscape_printable hc
    · decide
  | int k v =>
    rcases intText_chars hc with h | rfl
    · exact hdigit h
    · decide
  | bool k v =>
    have hall : (boolText v).all fun c => 0x20 ≤ c.toNat := by cases v <;> decide
    exact printable_of_all hall c hc
  | float k v =>
    rcases Fixed3.toText_chars hc with h | rfl | rfl
    · exact hdigit h
    · decide
    · decide

theorem buildJson_printable (calls : List BuilderCall) :
    ∀ c ∈ buildJson calls, 0x20 ≤ c.toNat := by
  have hmember {call : BuilderCall} {c : Char} (hc : c ∈ call.memberText) : 0x20 ≤ c.toNat := by
    simp only [BuilderCall.memberText,List.mem_cons,List.mem_append] at hc
    rcases hc with rfl | hc | rfl | rfl | hc
    · decide
    · exact jsonEscape_printable hc
    · decide
    · decide
    · exact valueText_printable hc
  intro c hc
  cases calls with
  | nil => exact printable_of_all (by decide) c hc
  | cons call calls =>
    rw [buildJson_cons] at hc
    simp only [List.mem_cons,List.mem_append,List.mem_flatMap,List.not_mem_nil,or_false] at hc
    rcases hc with rfl | hc | ⟨call',-,rfl | hc⟩ | rfl
    · decide
    · exact hmember hc
    · decide
    · exact hmember hc
    · decide

/-! ## The bodies -/

structure CloseEvent where
  connId : Nat
  uuid : Text
  tokenType : Text
  secret : Text
  tls : Bool
  duration : Nat
  stats : ConnStats
  ending : Text
deriving DecidableEq

/-- The floats of a `close` event as texts: a duration and a number of nanoseconds in
milliseconds, and a throughput. -/
structure FloatTexts where
  durationMs : Nat → Fixed3
  nsToMs : Nat → Fixed3
  mbps : UInt64 → Nat → Fixed3

def authBody (e : AuthEvent) : Text :=
  let j := JsonBuilder.new.str "event" "auth"
  let j := j.int "conn" (Int64.ofNat e.connId)
  let j := j.str "client" e.client
  let j := j.str "uuid" e.uuid
  let j := j.str "token" e.tokenType
  let j := j.str "result" e.result
  let j := match e.label with
    | some l => j.str "secret" l
    | none => j
  let j := match e.reason with
    | some r => j.str "reason" r
    | none => j
  j.done

def closeBody (f : FloatTexts) (e : CloseEvent) : Text :=
  let stats := e.stats
  let j := JsonBuilder.new.str "event" "close"
  let j := j.int "conn" (Int64.ofNat e.connId)
  let j := j.str "uuid" e.uuid
  let j := j.str "token" e.tokenType
  let j := j.str "secret" e.secret
  let j := j.bool "tls" e.tls
  let j := j.str "end" e.ending
  let j := j.float "duration_ms" (f.durationMs e.duration)
  let j := j.int "commands" (Int64.ofNat stats.commands.toNat)
  let j := if 0 < stats.downloadBytes then
      let j := j.int "dl_bytes" stats.downloadBytes.toInt64
      let j := j.float "dl_ms" (f.nsToMs stats.downloadNs)
      j.float "dl_mbps" (f.mbps stats.downloadBytes stats.downloadNs)
    else j
  let j := if 0 < stats.uploadBytes then
      let j := j.int "ul_bytes" stats.uploadBytes.toInt64
      let j := j.float "ul_ms" (f.nsToMs stats.uploadNs)
      j.float "ul_mbps" (f.mbps stats.uploadBytes stats.uploadNs)
    else j
  let j := if 0 < stats.pingCount then
      let j := j.int "ping_count" (Int64.ofNat stats.pingCount.toNat)
      let j := j.float "ping_min_ms" (f.nsToMs stats.pingMinNs)
      j.float "ping_max_ms" (f.nsToMs stats.pingMaxNs)
    else j
  j.done

/-! ## What the bodies say -/

def authFields (e : AuthEvent) : List BuilderCall :=
  let common : List BuilderCall := [.str "event" "auth",.int "conn" (Int64.ofNat e.connId),
    .str "client" e.client,.str "uuid" e.uuid,.str "token" e.tokenType,.str "result" e.result]
  common ++ e.label.toList.map (.str "secret") ++ e.reason.toList.map (.str "reason")

private def downloadFields (f : FloatTexts) (s : ConnStats) : List BuilderCall :=
  if 0 < s.downloadBytes then
    [.int "dl_bytes" s.downloadBytes.toInt64,.float "dl_ms" (f.nsToMs s.downloadNs),
      .float "dl_mbps" (f.mbps s.downloadBytes s.downloadNs)] else []

private def uploadFields (f : FloatTexts) (s : ConnStats) : List BuilderCall :=
  if 0 < s.uploadBytes then
    [.int "ul_bytes" s.uploadBytes.toInt64,.float "ul_ms" (f.nsToMs s.uploadNs),
      .float "ul_mbps" (f.mbps s.uploadBytes s.uploadNs)] else []

private def pingFields (f : FloatTexts) (s : ConnStats) : List BuilderCall :=
  if 0 < s.pingCount then
    [.int "ping_count" (Int64.ofNat s.pingCount.toNat),.float "ping_min_ms" (f.nsToMs s.pingMinNs),
      .float "ping_max_ms" (f.nsToMs s.pingMaxNs)] else []

def closeFields (f : FloatTexts) (e : CloseEvent) : List BuilderCall :=
  let common : List BuilderCall := [.str "event" "close",.int "conn" (Int64.ofNat e.connId),
    .str "uuid" e.uuid,.str "token" e.tokenType,.str "secret" e.secret,.bool "tls" e.tls,
    .str "end" e.ending,.float "duration_ms" (f.durationMs e.duration),
    .int "commands" (Int64.ofNat e.stats.commands.toNat)]
  common ++ downloadFields f e.stats ++ uploadFields f e.stats ++ pingFields f e.stats

theorem authBody_eq (e : AuthEvent) : authBody e = buildJson (authFields e) := by
  unfold authBody authFields
  cases e.label <;> cases e.reason <;> rfl

theorem closeBody_eq (f : FloatTexts) (e : CloseEvent) :
    closeBody f e = buildJson (closeFields f e) := by
  unfold closeBody closeFields downloadFields uploadFields pingFields
  by_cases hd : 0 < e.stats.downloadBytes
  all_goals by_cases hu : 0 < e.stats.uploadBytes
  all_goals by_cases hp : 0 < e.stats.pingCount
  all_goals
    simp only [hd,hu,hp,if_true,if_false]
    rfl

private theorem authFields_nodup (e : AuthEvent) : ((authFields e).map BuilderCall.name).Nodup := by
  unfold authFields
  cases e.label <;> cases e.reason <;>
    simp only [Option.toList,List.map_append,List.map_cons,List.map_nil,BuilderCall.name] <;> decide

private theorem closeFields_nodup (f : FloatTexts) (e : CloseEvent) :
    ((closeFields f e).map BuilderCall.name).Nodup := by
  unfold closeFields downloadFields uploadFields pingFields
  by_cases hd : 0 < e.stats.downloadBytes
  all_goals by_cases hu : 0 < e.stats.uploadBytes
  all_goals by_cases hp : 0 < e.stats.pingCount
  all_goals
    simp only [hd,hu,hp,if_true,if_false,List.map_append,List.map_cons,List.map_nil,
      BuilderCall.name]
    decide

/-- Every sequence of builder calls gives the text of one object with exactly the members asked
for, in order, without a control character, and an integer reads back as it was. So the bodies of
the `auth` and `close` events decode to the fields passed in, whatever a client sent as its UUID,
and each field occurs once. -/
theorem event_bodies_faithful :
    (∀ calls, parseJson (buildJson calls) = some (.object (calls.map BuilderCall.member)) ∧
      ∀ c ∈ buildJson calls, 0x20 ≤ c.toNat) ∧
    (∀ v : Int64, parseInt64 (intText v.toInt) = some v) ∧
    (∀ e, parseJson (authBody e) = some (.object ((authFields e).map BuilderCall.member)) ∧
      ((authFields e).map BuilderCall.name).Nodup ∧ ∀ c ∈ authBody e, 0x20 ≤ c.toNat) ∧
    ∀ f e, parseJson (closeBody f e) = some (.object ((closeFields f e).map BuilderCall.member)) ∧
      ((closeFields f e).map BuilderCall.name).Nodup ∧ ∀ c ∈ closeBody f e, 0x20 ≤ c.toNat := by
  refine ⟨fun calls => ⟨parseJson_buildJson calls,buildJson_printable calls⟩,parseInt64_intText,
    ?_,?_⟩
  · intro e
    rw [authBody_eq]
    exact ⟨parseJson_buildJson _,authFields_nodup e,buildJson_printable _⟩
  · intro f e
    rw [closeBody_eq]
    exact ⟨parseJson_buildJson _,closeFields_nodup f e,buildJson_printable _⟩

example : buildJson [.str "event" "x",.int "conn" 3,.bool "tls" true,.float "v" ⟨false,1,500⟩] =
    "\x7b\"event\":\"x\",\"conn\":3,\"tls\":true,\"v\":1.500\x7d" := by decide

end Rmbtd
