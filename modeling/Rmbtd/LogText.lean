import Rmbtd.IpCheck.Response
import Rmbtd.Protocol.Greeting

/-!
# The text of log records

What the logger prints for a record, and the pieces it is put together from. Line breaks can only
come from texts of the server's own and from client text that is formatted as it is.
-/

namespace Rmbtd

/-! ## Texts -/

/-- No line feed and no carriage return. -/
def Unbroken (t : Text) : Prop := '\n' ∉ t ∧ '\r' ∉ t

instance (t : Text) : Decidable (Unbroken t) := inferInstanceAs (Decidable (_ ∧ _))

namespace Unbroken

@[simp] theorem nil : Unbroken [] := by decide

@[simp] theorem append_iff {a b : Text} : Unbroken (a ++ b) ↔ Unbroken a ∧ Unbroken b := by
  simp [Unbroken]
  tauto

@[simp] theorem cons_iff {c : Char} {a : Text} :
    Unbroken (c::a) ↔ (c ≠ '\n' ∧ c ≠ '\r') ∧ Unbroken a := by
  simp [Unbroken,eq_comm]
  tauto

theorem of_mem {a b : Text} (hb : Unbroken b) (h : ∀ c ∈ a, c ∈ b) : Unbroken a :=
  ⟨fun hc => hb.1 (h _ hc),fun hc => hb.2 (h _ hc)⟩

theorem of_chars {a : Text} (p : Char → Prop) (h : ∀ c ∈ a, p c) (hfeed : ¬p '\n')
    (hreturn : ¬p '\r') : Unbroken a :=
  ⟨fun hc => hfeed (h _ hc),fun hc => hreturn (h _ hc)⟩

@[simp] theorem natText (n : Nat) : Unbroken (natText n) :=
  of_chars (·.isDigit) (fun _ => natText_isDigit) (by decide) (by decide)

@[simp] theorem intText (i : Int) : Unbroken (intText i) :=
  of_chars (fun c => c.isDigit ∨ c = '-') (fun _ => intText_chars) (by decide) (by decide)

@[simp] theorem hexText (n : Nat) : Unbroken (hexText n) :=
  of_chars (fun c => ∃ d < 16, c = Nat.digitChar d) (fun _ => hexText_digit) (by decide) (by decide)

@[simp] theorem boolText (b : Bool) : Unbroken (boolText b) := by
  cases b
  · decide
  · decide

@[simp] theorem ipText (ip : IpAddr) : Unbroken ip.toText :=
  of_chars (fun c => (∃ d < 16, c = Nat.digitChar d) ∨ c = '.' ∨ c = ':')
    (fun _ => IpAddr.toText_chars) (by decide) (by decide)

@[simp] theorem connTag (connId : Nat) : Unbroken (connTag connId) := by
  unfold Rmbtd.connTag
  simp only [append_iff,natText,and_true]
  decide

end Unbroken

/-- Put together from texts without line breaks and texts of the server's own. -/
def OneLine (own : Text → Prop) (t : Text) : Prop :=
  ∃ pieces : List Text, t = pieces.flatten ∧ ∀ p ∈ pieces, Unbroken p ∨ own p

namespace OneLine

variable {own : Text → Prop} {a b : Text}

theorem of_own (h : own a) : OneLine own a := ⟨[a],by simp,by simp [h]⟩

theorem of_unbroken (h : Unbroken a) : OneLine own a := ⟨[a],by simp,by simp [h]⟩

theorem append (ha : OneLine own a) (hb : OneLine own b) : OneLine own (a ++ b) := by
  obtain ⟨ps,rfl,hps⟩ := ha
  obtain ⟨qs,rfl,hqs⟩ := hb
  refine ⟨ps ++ qs,by simp,?_⟩
  intro p hp
  rcases List.mem_append.mp hp with hp | hp
  · exact hps p hp
  · exact hqs p hp

theorem between {t : Text} (ht : own t) (ha : Unbroken a) (hb : Unbroken b) :
    OneLine own (a ++ t ++ b) :=
  ((of_unbroken ha).append (of_own ht)).append (of_unbroken hb)

theorem unbroken (h : OneLine own a) (hown : ∀ t, own t → Unbroken t) : Unbroken a := by
  obtain ⟨ps,rfl,hps⟩ := h
  induction ps with
  | nil => decide
  | cons p ps ih =>
    have hp : Unbroken p := (hps p (by simp)).elim id (hown p)
    simp only [List.flatten_cons,Unbroken.append_iff]
    exact ⟨hp,ih fun q hq => hps q (by simp [hq])⟩

end OneLine

/-! ## Records -/

/-- `char::escape_debug` in a string. Which other characters are printed as they are is a matter of
the Unicode tables. -/
def debugChar (printable : Char → Bool) (c : Char) : Text :=
  if c = '\x00' then "\\0"
  else if c = '\t' then "\\t"
  else if c = '\r' then "\\r"
  else if c = '\n' then "\\n"
  else if c = '"' then "\\\""
  else if c = '\\' then "\\\\"
  else if printable c then [c]
  else "\\u\x7b".toList ++ hexText c.toNat ++ "\x7d".toList

/-- A text as `{:?}` prints it. -/
def debugText (printable : Char → Bool) (t : Text) : Text :=
  "\"".toList ++ t.flatMap (debugChar printable) ++ "\"".toList

def LogRecord.render (printable : Char → Bool) (r : LogRecord) : Text :=
  r.text ++ ((r.quoted.map (debugText printable)).getD [])

def Level.toText : Level → Text
  | .error => "ERROR"
  | .warn => "WARN "
  | .info => "INFO "
  | .debug => "DEBUG"

def logLine (printable : Char → Bool) (timestamp : Text) (r : LogRecord) : Text :=
  timestamp ++ " [" ++ r.level.toText ++ "] " ++ r.render printable ++ "\n"

def Level.isSevere : Level → Bool
  | .debug => false
  | _ => true

private theorem unbroken_debugChar (printable : Char → Bool) (c : Char) :
    Unbroken (debugChar printable c) := by
  unfold debugChar
  split
  · decide
  split
  · decide
  split
  · decide
  split
  · decide
  split
  · decide
  split
  · decide
  split
  · next hreturn hfeed _ _ _ => simp [Unbroken,Ne.symm hreturn,Ne.symm hfeed]
  · simp only [Unbroken.append_iff,Unbroken.hexText,and_true]
    decide

theorem Unbroken.debugText (printable : Char → Bool) (t : Text) :
    Unbroken (debugText printable t) := by
  have hall : Unbroken (t.flatMap (debugChar printable)) := by
    induction t with
    | nil => simp
    | cons c t ih => simp [unbroken_debugChar,ih]
  simp only [Rmbtd.debugText,append_iff,hall,and_true]
  decide

/-- The record spans one line but for texts of the server's own. -/
def LogRecord.Tidy (own : Text → Prop) (r : LogRecord) : Prop :=
  r.level.isSevere → OneLine own r.text

section
variable {own : Text → Prop} {r : LogRecord} (printable : Char → Bool)

theorem LogRecord.Tidy.render (h : r.Tidy own) (hsevere : r.level.isSevere) :
    OneLine own (r.render printable) := by
  apply (h hsevere).append
  cases r.quoted with
  | none => exact .of_unbroken Unbroken.nil
  | some t => exact .of_unbroken (.debugText printable t)

/-- A record without line breaks is one line of the log. -/
theorem LogRecord.logLine_eq {timestamp : Text} (htimestamp : Unbroken timestamp)
    (h : Unbroken (r.render printable)) :
    ∃ line, Unbroken line ∧ logLine printable timestamp r = line ++ "\n" := by
  refine ⟨_,?_,rfl⟩
  have hlevel : Unbroken r.level.toText := by
    cases r.level
    all_goals decide
  simp [htimestamp,hlevel,h]

theorem LogRecord.unbroken_of_render (h : Unbroken (r.render printable)) : Unbroken r.text :=
  (Unbroken.append_iff.mp h).1

end

/-! ## Token validation -/

namespace Logged

theorem mem_bind {α β : Type} {m : Logged α} {f : α → Logged β} {r : LogRecord}
    (h : r ∈ m.records) : r ∈ (m >>= f).records := List.mem_append_left _ h

/-- The value is one of `V` and every record is tidy. -/
structure Gives {α : Type} (own : Text → Prop) (V : α → Prop) (m : Logged α) : Prop where
  val : V m.val
  records : ∀ r ∈ m.records, r.Tidy own

namespace Gives

variable {α β : Type} {own : Text → Prop} {V : α → Prop} {W : β → Prop}

theorem pure {a : α} (h : V a) : Gives own V (Pure.pure a : Logged α) := ⟨h,by simp [Pure.pure]⟩

theorem bind {m : Logged α} {f : α → Logged β} (hm : Gives own V m)
    (hf : ∀ a, V a → Gives own W (f a)) : Gives own W (m >>= f) := by
  have hnext := hf m.val hm.val
  refine ⟨hnext.val,?_⟩
  intro r hr
  rcases List.mem_append.mp hr with hr | hr
  · exact hm.records r hr
  · exact hnext.records r hr

theorem mono {V' : α → Prop} {m : Logged α} (hm : Gives own V m) (h : ∀ a, V a → V' a) :
    Gives own V' m := ⟨h _ hm.val,hm.records⟩

theorem log {level : Level} {text : Text} {f : Unit → Logged β} (h : OneLine own text)
    (hf : Gives own W (f ())) : Gives own W (Logged.log level text >>= f) := by
  apply bind (V := fun _ => True) _ fun _ _ => hf
  refine ⟨trivial,?_⟩
  intro r hr
  rw [List.mem_singleton.mp hr]
  exact fun _ => h

theorem debug {text : Text} {f : Unit → Logged β} (hf : Gives own W (f ())) :
    Gives own W (Logged.log .debug text >>= f) := by
  apply bind (V := fun _ => True) _ fun _ _ => hf
  refine ⟨trivial,?_⟩
  intro r hr
  rw [List.mem_singleton.mp hr]
  exact fun hsevere => absurd hsevere (by simp [Level.isSevere])

end Gives

end Logged

section
variable (cr : Crypto) (keys : List SecretKey) (connId : Nat)

private theorem uuidOf_splitn {raw uuid ts mac : Text} (h : splitn 3 "_" raw = [uuid,ts,mac]) :
    uuidOf raw = uuid := by
  have h : splitn 3 ['_'] raw = [uuid,ts,mac] := h
  obtain ⟨rfl,huuid,-⟩ := splitn_three.mp h
  unfold uuidOf
  rw [List.takeWhile_append_of_pos]
  · simp
  · intro c hc
    have hne : c ≠ '_' := fun heq => huuid (heq ▸ hc)
    simp [hne]

def mismatchRecord (uuid : Text) : LogRecord :=
  ⟨.error,connTag connId ++ "token rejected: HMAC mismatch for uuid=" ++ uuid,none⟩

theorem matchV1_cases (raw : Text) :
    (∃ uuid startTime, ∃ key ∈ keys, matchV1 cr raw keys connId = ⟨.ok (uuid,startTime,key),[]⟩) ∨
      (∃ text, matchV1 cr raw keys connId = ⟨.error .parseError,[⟨.debug,text,none⟩]⟩) ∨
      matchV1 cr raw keys connId = ⟨.error .invalidHmac,[mismatchRecord connId (uuidOf raw)]⟩ := by
  unfold matchV1
  dsimp only
  split
  · next uuid ts mac hparts =>
    split
    · exact Or.inr (Or.inl ⟨_,rfl⟩)
    split
    · exact Or.inr (Or.inl ⟨_,rfl⟩)
    · split
      · next key hkey => exact Or.inl ⟨uuid,_,key,List.mem_of_find?_eq_some hkey,rfl⟩
      · rw [uuidOf_splitn hparts]
        exact Or.inr (Or.inr rfl)
  · exact Or.inr (Or.inl ⟨_,rfl⟩)

variable {own : Text → Prop} {cr keys connId}

theorem matchV1_refused {raw : Text}
    (h : (matchV1 cr raw keys connId).val = .error .invalidHmac) :
    mismatchRecord connId (uuidOf raw) ∈ (matchV1 cr raw keys connId).records := by
  rcases matchV1_cases cr keys connId raw with ⟨_,_,_,_,heq⟩ | ⟨_,heq⟩ | heq
  · rw [heq] at h
    cases h
  · rw [heq] at h
    cases h
  · rw [heq]
    exact List.mem_singleton_self _

theorem matchV1_gives {raw : Text}
    (h : (matchV1 cr raw keys connId).val = .error .invalidHmac → Unbroken (uuidOf raw)) :
    (matchV1 cr raw keys connId).Gives own fun r => match r with
      | .ok (_,_,key) => key ∈ keys
      | .error rejected => rejected = .parseError ∨ rejected = .invalidHmac := by
  rcases matchV1_cases cr keys connId raw with ⟨uuid,startTime,key,hkey,heq⟩ | ⟨text,heq⟩ | heq
  · rw [heq]
    exact ⟨hkey,by simp⟩
  · rw [heq]
    exact ⟨Or.inl rfl,by simp [LogRecord.Tidy,Level.isSevere]⟩
  · have huuid := h (by rw [heq])
    rw [heq]
    refine ⟨Or.inr rfl,?_⟩
    intro r hr
    rw [List.mem_singleton.mp hr]
    intro _
    apply OneLine.of_unbroken
    simp only [mismatchRecord,Unbroken.append_iff,Unbroken.connTag,huuid,true_and,and_true]
    decide

private def IsWindow : TokenResult → Prop
  | .tooEarly _ => True
  | .tooLate _ => True
  | _ => False

private theorem windowCheck_gives (startTime now : Int64) :
    (windowCheck startTime connId now).Gives own fun r => ∀ e, r = .error e → IsWindow e := by
  unfold windowCheck
  dsimp only
  split
  · apply Logged.Gives.log
    · exact .of_unbroken (by simp)
    · exact .pure fun e he => by cases he; trivial
  split
  · apply Logged.Gives.log
    · exact .of_unbroken (by simp)
    · exact .pure fun e he => by cases he; trivial
  · exact .pure fun e he => by cases he

private theorem timeWindow_gives (startTime now : Int64) (label : Text) :
    (timeWindow startTime connId label now).Gives own fun r =>
      IsWindow r ∨ ∃ secs, r = .accepted secs label := by
  unfold timeWindow
  apply (windowCheck_gives startTime now).bind
  intro r hr
  cases r with
  | error rejected => exact .pure (Or.inl (hr _ rfl))
  | ok secondsEarly =>
    dsimp only
    split
    · exact .debug (.pure (Or.inr ⟨_,rfl⟩))
    · exact .pure (Or.inr ⟨_,rfl⟩)

private theorem matchV2_gives (bytes : Bytes) (key : SecretKey) (ip16 : Bytes) :
    (matchV2 cr bytes key ip16 connId).Gives own fun _ => True := by
  unfold matchV2
  dsimp only
  split
  · exact .debug (.pure trivial)
  · apply Logged.Gives.debug
    split
    · exact .debug (.pure trivial)
    · exact .debug (.pure trivial)

private theorem searchV2_gives (bytes ip16 : Bytes) (keys : List SecretKey) :
    (searchV2 cr bytes ip16 connId keys).Gives own fun r =>
      ∀ label, r.1 = some label → ∃ key ∈ keys, key.label = label := by
  induction keys with
  | nil => exact .pure fun _ h => by cases h
  | cons key keys ih =>
    apply (matchV2_gives bytes key ip16).bind
    intro outcome _
    cases outcome with
    | timeMismatch =>
      apply ih.mono
      intro r hr label hlabel
      obtain ⟨key',hmem,hkey'⟩ := hr label hlabel
      exact ⟨key',List.mem_cons_of_mem _ hmem,hkey'⟩
    | ipMismatch => exact .pure fun _ h => by cases h
    | ok =>
      apply Logged.Gives.pure
      intro label hlabel
      exact ⟨key,by simp,Option.some.inj hlabel⟩

variable (hkeys : ∀ key ∈ keys, own key.label)
include hkeys

private theorem validateV1_gives {raw : Text} {clock : ClockReadings}
    (h : (matchV1 cr raw keys connId).val = .error .invalidHmac → Unbroken (uuidOf raw)) :
    (validateV1 cr raw keys connId clock).Gives own fun r =>
      ∀ secs label, r = .accepted secs label → own label := by
  unfold validateV1
  apply (matchV1_gives h).bind
  intro r hr
  cases r with
  | error rejected =>
    apply Logged.Gives.pure
    intro secs label hlabel
    rcases hr with hr | hr
    · rw [hr] at hlabel
      cases hlabel
    · rw [hr] at hlabel
      cases hlabel
  | ok found =>
    have hlabel := hkeys found.2.2 hr
    apply Logged.Gives.log
    · exact .between hlabel (by simp) (by decide)
    · apply (timeWindow_gives found.2.1 clock.window found.2.2.label).mono
      intro verdict hverdict secs label hl
      rw [hl] at hverdict
      rcases hverdict with hverdict | ⟨_,hverdict⟩
      · exact hverdict.elim
      · cases hverdict
        exact hlabel

private theorem validateV2_gives (raw : Text) (ip : Option IpAddr) (clock : ClockReadings) :
    (validateV2 cr raw keys connId ip clock).Gives own fun r =>
      ∀ secs label, r = .accepted secs label → own label := by
  have hnever (rejected : TokenResult) (h : ∀ secs label, rejected ≠ .accepted secs label) :
      (pure rejected : Logged TokenResult).Gives own fun r =>
        ∀ secs label, r = .accepted secs label → own label :=
    .pure fun secs label hr => absurd hr (h secs label)
  unfold validateV2
  cases cr.base64.decode raw with
  | none => exact .debug (hnever _ nofun)
  | some bytes =>
    dsimp only
    split
    · exact .debug (hnever _ nofun)
    · apply Logged.Gives.debug
      cases ip with
      | none =>
        apply Logged.Gives.log
        · exact .of_unbroken (by simp)
        · exact hnever _ nofun
      | some ip =>
        apply Logged.Gives.debug
        apply (searchV2_gives bytes (mappedIpv6 ip) keys).bind
        intro found hfound
        match found, hfound with
        | (some label,_), hfound =>
          obtain ⟨key,hmem,hkey⟩ := hfound label rfl
          have hlabel : own label := hkey ▸ hkeys key hmem
          apply Logged.Gives.log
          · exact .between hlabel (by simp) (by decide)
          · apply Logged.Gives.debug
            apply (timeWindow_gives _ clock.window label).mono
            intro verdict hverdict secs label hl
            rw [hl] at hverdict
            rcases hverdict with hverdict | ⟨_,hverdict⟩
            · exact hverdict.elim
            · cases hverdict
              exact hlabel
        | (none,true), _ =>
          apply Logged.Gives.log
          · exact .of_unbroken (by simp)
          · exact hnever _ nofun
        | (none,false), _ =>
          apply Logged.Gives.log
          · exact .of_unbroken (by simp)
          · exact hnever _ nofun

omit hkeys in
private theorem validateV1_invalidHmac {raw : Text} {clock : ClockReadings} :
    (validateV1 cr raw keys connId clock).val = .invalidHmac ↔
      (matchV1 cr raw keys connId).val = .error .invalidHmac := by
  unfold validateV1
  rcases matchV1_cases cr keys connId raw with ⟨uuid,startTime,key,_,heq⟩ | ⟨text,heq⟩ | heq
  · have hgives : (timeWindow startTime connId key.label clock.window).Gives (fun _ => True) fun r =>
        IsWindow r ∨ ∃ secs, r = .accepted secs key.label := timeWindow_gives ..
    have hwindow := hgives.val
    simp only [Logged.val_bind,heq]
    constructor
    · intro h
      rw [h] at hwindow
      rcases hwindow with hwindow | ⟨_,hwindow⟩
      · exact hwindow.elim
      · cases hwindow
    · exact nofun
  · simp [heq]
  · simp [heq]

/-- A validation shows the uuid of a v1 token that no key matches, and no other. -/
theorem validateToken_gives {raw : Text} {ip : Option IpAddr} {v2Only : Bool}
    {clock : ClockReadings} (h : extractV2 raw = none →
      (validateToken cr raw keys connId ip v2Only clock).val = .invalidHmac → Unbroken (uuidOf raw)) :
    (validateToken cr raw keys connId ip v2Only clock).Gives own fun r =>
      ∀ secs label, r = .accepted secs label → own label := by
  unfold validateToken at h ⊢
  cases hraw : extractV2 raw with
  | some v2 => exact validateV2_gives hkeys v2 ip clock
  | none =>
    simp only [hraw,forall_const] at h
    dsimp only
    split
    · apply Logged.Gives.log
      · exact .of_unbroken (by simp)
      · exact .pure nofun
    · next hv2Only =>
      apply validateV1_gives hkeys
      intro hmatch
      rw [if_neg hv2Only] at h
      exact h (validateV1_invalidHmac.mpr hmatch)

omit hkeys in
theorem validateToken_mismatch {raw : Text} {ip : Option IpAddr} {v2Only : Bool}
    {clock : ClockReadings} (hraw : extractV2 raw = none)
    (h : (validateToken cr raw keys connId ip v2Only clock).val = .invalidHmac) :
    mismatchRecord connId (uuidOf raw) ∈
      (validateToken cr raw keys connId ip v2Only clock).records := by
  simp only [validateToken,hraw] at h ⊢
  split at h
  · cases h
  · next hv2Only =>
    rw [if_neg hv2Only]
    have hmatch := validateV1_invalidHmac.mp h
    exact Logged.mem_bind (matchV1_refused hmatch)

end

/-! ## The answer to `/ip` -/

def requestToken (fromSlice : JsonParser) (body : Bytes) : Option Text :=
  if body = [] then none
  else match fromSlice body with
  | .ok (.object members) => match localAddr members, tokenText members with
    | .ok _, .ok token => token
    | _, _ => none
  | _ => none

@[simp] theorem Unbroken.natType (localIp : Option IpAddr) (publicIp : IpAddr) :
    Unbroken (natType localIp publicIp) := by
  have hversion (ip : IpAddr) : Unbroken (if ip.isIpv4 then "ipv4".toList else "ipv6".toList) := by
    split <;> decide
  have hscope (ip : IpAddr) : Unbroken (if isIpLocal ip then "local".toList else "public".toList) := by
    split <;> decide
  have hfixed : Unbroken "is_".toList ∧ Unbroken "no_nat_".toList ∧ Unbroken "nat_".toList ∧
      Unbroken "_to_".toList ∧ Unbroken "_".toList := by decide
  obtain ⟨h1,h2,h3,h4,h5⟩ := hfixed
  cases localIp with
  | none =>
    simp only [Rmbtd.natType,append_iff]
    exact ⟨h1,hversion _⟩
  | some localIp =>
    simp only [Rmbtd.natType]
    split
    · simp only [append_iff]
      exact ⟨h2,hversion _⟩
    · split
      · simp only [append_iff]
        exact ⟨⟨⟨⟨⟨h3,hscope _⟩,h4⟩,hscope _⟩,h5⟩,hversion _⟩
      · simp only [append_iff]
        exact ⟨⟨⟨⟨⟨h3,hversion _⟩,h4⟩,hscope _⟩,h5⟩,hversion _⟩

section
variable {own : Text → Prop} {cr : Crypto} {keys : List SecretKey} {connId : Nat} {ip : IpAddr}
  {now : Int64} {token : Text}

private theorem matchingIp_gives (v2 : Option Text) (key : SecretKey) :
    (matchingIp cr v2 key ip connId).Gives own fun _ => True := by
  unfold matchingIp
  split
  · next bytes _ =>
    split
    · exact (matchV2_gives bytes key _).bind fun _ _ => .pure trivial
    · exact .pure trivial
  · exact .pure trivial

private theorem checkIpToken_gives (hkeys : ∀ key ∈ keys, own key.label)
    (h : (matchV1 cr (splitIpToken token).1 keys connId).val = .error .invalidHmac →
      Unbroken (uuidOf (splitIpToken token).1)) :
    (checkIpToken cr token keys connId ip now).Gives own fun r =>
      ∀ checked, r = .ok checked → own checked.key.label := by
  unfold checkIpToken
  dsimp only
  apply (matchV1_gives h).bind
  intro r hr
  cases r with
  | error rejected => exact .pure nofun
  | ok found =>
    have hlabel := hkeys found.2.2 hr
    apply (windowCheck_gives found.2.1 now).bind
    intro window _
    cases window with
    | error rejected => exact .pure nofun
    | ok _ =>
      apply (matchingIp_gives _ found.2.2).bind
      intro matching _
      apply Logged.Gives.log
      · exact (OneLine.between hlabel (by simp) (by decide)).append (.of_unbroken (by simp))
      · apply Logged.Gives.pure
        intro checked hchecked
        cases hchecked
        exact hlabel

private theorem signedMembers_gives (hkeys : ∀ key ∈ keys, own key.label)
    (h : (matchV1 cr (splitIpToken token).1 keys connId).val = .error .invalidHmac →
      Unbroken (uuidOf (splitIpToken token).1)) :
    (signedMembers cr token keys connId ip now).Gives own fun r =>
      ∀ signed note, r = .ok (signed,note) → OneLine own note := by
  unfold signedMembers
  apply (checkIpToken_gives hkeys h).bind
  intro r hr
  cases r with
  | error rejected => exact .pure nofun
  | ok checked =>
    have hlabel := hr checked rfl
    dsimp only
    split
    · exact .pure nofun
    · apply Logged.Gives.pure
      intro signed note hnote
      cases hnote
      exact ((OneLine.between hlabel (by decide) (by decide)).append (.of_unbroken (by simp))).append
        (.of_unbroken (by decide))

theorem ipResponse_gives {fromSlice : JsonParser} {body : Bytes}
    (hkeys : ∀ key ∈ keys, own key.label)
    (h : ∀ token, requestToken fromSlice body = some token →
      (matchV1 cr (splitIpToken token).1 keys connId).val = .error .invalidHmac →
        Unbroken (uuidOf (splitIpToken token).1)) :
    (ipResponse cr fromSlice body ip keys connId now).Gives own fun r =>
      ∀ answer, r = .ok answer → OneLine own answer.note := by
  unfold requestToken at h
  unfold ipResponse
  split
  · exact .pure nofun
  · next hbody =>
    rw [if_neg hbody] at h
    split
    · exact .pure nofun
    · next members heq =>
      simp only [heq] at h
      split
      · exact .pure nofun
      · next localIp hlocal =>
        simp only [hlocal] at h
        split
        · exact .pure nofun
        · next token htoken =>
          simp only [htoken] at h
          dsimp only
          split
          · apply Logged.Gives.pure
            intro answer hanswer
            cases hanswer
            exact .of_unbroken (by simp)
          · next token =>
            apply (signedMembers_gives hkeys (h token rfl)).bind
            intro r hr
            cases r with
            | error e => exact .pure nofun
            | ok signed =>
              apply Logged.Gives.pure
              intro answer hanswer
              cases hanswer
              exact (OneLine.of_unbroken (by simp)).append (hr _ _ rfl)
    · exact .pure nofun

theorem ipResponse_mismatch {fromSlice : JsonParser} {body : Bytes}
    (htoken : requestToken fromSlice body = some token)
    (h : (matchV1 cr (splitIpToken token).1 keys connId).val = .error .invalidHmac) :
    mismatchRecord connId (uuidOf (splitIpToken token).1) ∈
      (ipResponse cr fromSlice body ip keys connId now).records := by
  have hmatch := matchV1_refused h
  unfold requestToken at htoken
  unfold ipResponse
  split at htoken
  · cases htoken
  · next hbody =>
    rw [if_neg hbody]
    split at htoken
    · next members heq =>
      split at htoken
      · next localIp _ hlocal hmember =>
        subst htoken
        simp only [heq,hlocal,hmember]
        exact Logged.mem_bind (Logged.mem_bind (Logged.mem_bind hmatch))
      · cases htoken
    · cases htoken

end

end Rmbtd
