import Rmbtd.Library.Fuel
import Rmbtd.Protocol.Conversation
import Rmbtd.Server.LogLines
import Rmbtd.Server.SinkEvents

/-!
# The course of a greeting

What a greeting does, told from the stream alone: whether the client gets to a token, what the check
of it says and whether the two lines after it can be written.
-/

namespace Rmbtd

open Effect Session

/-! ## What a run adds to the trace -/

/-- The run ends in `Q` or in `E`, which also speak of what it added to the trace. -/
def Adds {σ α : Type} (m : Session σ α) (w : World σ) (Q : α → World σ → List Event → Prop)
    (E : Stop → List Event → Prop) : Prop :=
  match m w with
  | .ok a w' => ∃ tr, w'.trace = w.trace ++ tr ∧ Q a w' tr
  | .error e w' => ∃ tr, w'.trace = w.trace ++ tr ∧ E e tr

namespace Adds

variable {σ α β : Type} {m : Session σ α} {w : World σ} {Q : α → World σ → List Event → Prop}
  {E : Stop → List Event → Prop}

theorem bind {R : α → World σ → List Event → Prop} {F : Stop → List Event → Prop}
    {f : α → Session σ β} {Q : β → World σ → List Event → Prop} (hm : Adds m w R F)
    (hE : ∀ e tr, F e tr → E e tr)
    (hf : ∀ a w' tr, R a w' tr → Adds (f a) w' (fun b w'' tr' => Q b w'' (tr ++ tr'))
      fun e tr' => E e (tr ++ tr')) : Adds (m >>= f) w Q E := by
  unfold Adds at hm
  cases hw : m w with
  | ok a w' =>
    rw [hw] at hm
    obtain ⟨tr,htr,hR⟩ := hm
    have h := hf a w' tr hR
    unfold Adds at h ⊢
    rw [bind_ok hw]
    cases hw' : f a w' with
    | ok b w'' =>
      rw [hw'] at h
      obtain ⟨tr',htr',hQ⟩ := h
      exact ⟨tr ++ tr',by rw [htr',htr,List.append_assoc],hQ⟩
    | error e w'' =>
      rw [hw'] at h
      obtain ⟨tr',htr',hF⟩ := h
      exact ⟨tr ++ tr',by rw [htr',htr,List.append_assoc],hF⟩
  | error e w' =>
    rw [hw] at hm
    obtain ⟨tr,htr,hF⟩ := hm
    unfold Adds
    rw [bind_error hw]
    exact ⟨tr,htr,hE e tr hF⟩

theorem mono {Q' : α → World σ → List Event → Prop} {E' : Stop → List Event → Prop}
    (h : Adds m w Q E) (hQ : ∀ a w' tr, Q a w' tr → Q' a w' tr) (hE : ∀ e tr, E e tr → E' e tr) :
    Adds m w Q' E' := by
  unfold Adds at h ⊢
  cases hw : m w with
  | ok a w' =>
    rw [hw] at h
    obtain ⟨tr,htr,hq⟩ := h
    exact ⟨tr,htr,hQ a w' tr hq⟩
  | error e w' =>
    rw [hw] at h
    obtain ⟨tr,htr,he⟩ := h
    exact ⟨tr,htr,hE e tr he⟩

theorem returns {a : α} {w' : World σ} (h : Adds m w Q E) (hw : m w = .ok a w') :
    ∃ tr, w'.trace = w.trace ++ tr ∧ Q a w' tr := by
  unfold Adds at h
  rw [hw] at h
  exact h

theorem endsIn {P : α → World σ → Prop} {F : Stop → Prop} (h : Adds m w Q E)
    (hQ : ∀ a w' tr, Q a w' tr → P a w') (hE : ∀ e tr, E e tr → F e) : EndsIn P F (m w) := by
  unfold Adds at h
  cases hw : m w with
  | ok a w' =>
    rw [hw] at h
    obtain ⟨tr,-,hq⟩ := h
    exact hQ a w' tr hq
  | error e w' =>
    rw [hw] at h
    obtain ⟨tr,-,he⟩ := h
    exact hE e tr he

theorem of_ok {a : α} {w' : World σ} {tr : List Event} (h : m w = .ok a w')
    (htr : w'.trace = w.trace ++ tr) (hQ : Q a w' tr) : Adds m w Q E := by
  unfold Adds
  rw [h]
  exact ⟨tr,htr,hQ⟩

theorem pure {a : α} (hQ : Q a w []) : Adds (Pure.pure a) w Q E := of_ok rfl (by simp) hQ

theorem throw {e : Stop} (hE : E e []) : Adds (MonadExcept.throw e) w Q E := ⟨[],by simp,hE⟩

theorem log {level : Level} {text : Text} {quoted : Option Text} {a : α}
    (hQ : Q a { w with trace := w.trace ++ [.logged ⟨level,text,quoted⟩] } [.logged ⟨level,text,quoted⟩]) :
    Adds (do Session.log level text quoted; return a) w Q E := of_ok rfl rfl hQ

theorem emit {e : Event} {Q : Unit → World σ → List Event → Prop}
    (hQ : Q () { w with trace := w.trace ++ [e] } [e]) : Adds (Session.emit e) w Q E :=
  of_ok rfl rfl hQ

theorem attempt (h : Adds m w Q E) : Adds (Rmbtd.attempt m) w
    (fun r w' tr => match r with
      | .ok a => Q a w' tr
      | .error e => E (.io e) tr)
    (fun stop tr => (∀ e, stop ≠ .io e) ∧ E stop tr) := by
  unfold Adds Rmbtd.attempt at *
  cases hw : m w with
  | ok a w' =>
    rw [hw] at h
    exact h
  | error stop w' =>
    rw [hw] at h
    cases stop with
    | io e => exact h
    | panic =>
      obtain ⟨tr,htr,hE⟩ := h
      exact ⟨tr,htr,nofun,hE⟩
    | outOfFuel =>
      obtain ⟨tr,htr,hE⟩ := h
      exact ⟨tr,htr,nofun,hE⟩

theorem onStream {m : EStateM IoError σ α}
    (hQ : ∀ a s, m w.stream = .ok a s → Q a { w with stream := s } [])
    (hE : ∀ e s, m w.stream = .error e s → E (.io e) []) : Adds (Session.onStream m) w Q E := by
  unfold Adds
  cases hm : m w.stream with
  | ok a s =>
    rw [onStream_ok hm]
    exact ⟨[],by simp,hQ a s hm⟩
  | error e s =>
    rw [onStream_error hm]
    exact ⟨[],by simp,hE e s hm⟩

variable [LineStream σ]

theorem writeLine {line : Text} {Q : Unit → World σ → List Event → Prop}
    (hQ : ∀ s, LineStream.writeAll (utf8 line) w.stream = .ok () s →
      Q () { w with stream := s, trace := w.trace ++ [.sentLine line] } [.sentLine line])
    (hE : ∀ e s, LineStream.writeAll (utf8 line) w.stream = .error e s → E (.io e) [.sentLine line]) :
    Adds (Session.writeLine line) w Q E := by
  unfold Adds
  cases hm : LineStream.writeAll (utf8 line) w.stream with
  | ok u s =>
    rw [writeLine_ok hm]
    exact ⟨_,rfl,hQ s hm⟩
  | error e s =>
    have hrun : Session.writeLine line w =
        .error (.io e) { w with stream := s, trace := w.trace ++ [.sentLine line] } :=
      onStream_error (w := { w with trace := w.trace ++ [.sentLine line] }) hm
    rw [hrun]
    exact ⟨_,rfl,hE e s hm⟩

theorem readLine {Q : Text → World σ → List Event → Prop}
    (hQ : ∀ line s, LineStream.readLine w.stream = .ok line s →
      Q line { w with stream := s, trace := w.trace ++ [.received line] } [.received line])
    (hE : ∀ e s, LineStream.readLine w.stream = .error e s → E (.io e) []) :
    Adds Session.readLine w Q E := by
  unfold Adds
  cases hm : LineStream.readLine w.stream with
  | ok line s =>
    rw [readLine_ok hm]
    exact ⟨_,rfl,hQ line s hm⟩
  | error e s =>
    rw [readLine_error hm]
    exact ⟨[],by simp,hE e s hm⟩

end Adds

/-! ## Getting to a token -/

/-- The first line of a stream that is not blank, and the stream after it. -/
inductive FirstLineTo : Stream → Text → Stream → Prop
  | here {stream next : Stream} {line : Text} : LineStream.readLine stream = .ok line next →
      trim line ≠ [] → FirstLineTo stream line next
  | skip {stream rest next : Stream} {blank line : Text} : LineStream.readLine stream = .ok blank rest →
      trim blank = [] → FirstLineTo rest line next → FirstLineTo stream line next

/-- The client takes the greeting and answers it with a token; then `next` is left. -/
def Presents (env : Env) (stream : Stream) (token : Text) (next : Stream) : Prop :=
  ∃ greeted prompted line rest,
    LineStream.writeAll (utf8 (greetingLine env.version)) stream = .ok () greeted ∧
    LineStream.writeAll (utf8 acceptTokenLine) greeted = .ok () prompted ∧
    FirstLineTo prompted line next ∧ stripPrefix "TOKEN " line = some rest ∧ token = trim rest

/-- The two lines after an admitted token can be written. -/
def Acknowledges (stream : Stream) : Prop :=
  ∃ accepted ready, LineStream.writeAll (utf8 "OK\n") stream = .ok () accepted ∧
    LineStream.writeAll (utf8 chunkSizeLine) accepted = .ok () ready

theorem FirstLineTo.unique {stream next next' : Stream} {line line' : Text}
    (h : FirstLineTo stream line next) (h' : FirstLineTo stream line' next') :
    line = line' ∧ next = next' := by
  induction h with
  | here hread hblank =>
    cases h' with
    | here hread' _ =>
      rw [hread] at hread'
      cases hread'
      exact ⟨rfl,rfl⟩
    | skip hread' hblank' _ =>
      rw [hread] at hread'
      cases hread'
      exact absurd hblank' hblank
  | skip hread hblank _ ih =>
    cases h' with
    | here hread' hblank' =>
      rw [hread] at hread'
      cases hread'
      exact absurd hblank hblank'
    | skip hread' _ hrest =>
      rw [hread] at hread'
      cases hread'
      exact ih hrest

theorem Presents.unique {env : Env} {stream next next' : Stream} {token token' : Text}
    (h : Presents env stream token next) (h' : Presents env stream token' next') :
    token = token' ∧ next = next' := by
  obtain ⟨greeted,prompted,line,rest,hgreet,hprompt,hfirst,hrest,rfl⟩ := h
  obtain ⟨greeted',prompted',line',rest',hgreet',hprompt',hfirst',hrest',rfl⟩ := h'
  rw [hgreet] at hgreet'
  cases hgreet'
  rw [hprompt] at hprompt'
  cases hprompt'
  obtain ⟨rfl,rfl⟩ := hfirst.unique hfirst'
  rw [hrest] at hrest'
  cases hrest'
  exact ⟨rfl,rfl⟩

def IsTokenLine (line : Text) : Prop := (stripPrefix "TOKEN " line).isSome = true

private theorem not_tokenLine_of_blank {line : Text} (h : trim line = []) : ¬IsTokenLine line := by
  intro htoken
  obtain ⟨rest,hrest⟩ := Option.isSome_iff_exists.mp htoken
  rw [stripPrefix_eq_some] at hrest
  have hmem : 'T' ∈ line := by
    rw [hrest]
    exact List.mem_append_left _ (by decide)
  exact absurd (trim_eq_nil.mp h 'T' hmem) (by decide)

/-! ## The phases of the greeting -/

section
variable {env : Env} {connId : Nat} {config : Config} {keys : List SecretKey} {w : World Stream}

/-- The events are no `auth` events and read no `TOKEN` line. -/
structure Tokenless (tr : List Event) : Prop where
  auths : authEvents tr = []
  lines : ∀ line, .received line ∈ tr → ¬IsTokenLine line

theorem Tokenless.append {tr tr' : List Event} (h : Tokenless tr) (h' : Tokenless tr') :
    Tokenless (tr ++ tr') := by
  constructor
  · rw [authEvents_append,h.auths,h'.auths,List.append_nil]
  · intro line hline
    rcases List.mem_append.mp hline with hline | hline
    · exact h.lines line hline
    · exact h'.lines line hline

private theorem Tokenless.of_line {line : Text} (h : ¬IsTokenLine line) :
    Tokenless [.received line] := by
  refine ⟨rfl,?_⟩
  intro line' hline'
  cases List.mem_singleton.mp hline'
  exact h

private theorem readToken_course (fuel : Nat) : Adds (readToken fuel) w
    (fun line w' tr => FirstLineTo w.stream line w'.stream ∧ w'.wall = w.wall ∧
      ∃ tr', tr = tr' ++ [.received line] ∧ Tokenless tr')
    (fun stop tr => Tokenless tr ∧ match stop with
      | .io _ => ∀ line next, ¬FirstLineTo w.stream line next
      | .panic => False
      | .outOfFuel => True) := by
  induction fuel generalizing w with
  | zero => exact .throw ⟨⟨rfl,by simp⟩,trivial⟩
  | succ fuel ih =>
    apply Adds.bind (R := fun line w' tr => LineStream.readLine w.stream = .ok line w'.stream ∧
      w'.wall = w.wall ∧ tr = [.received line])
      (F := fun stop tr => Tokenless tr ∧ ∃ e s, stop = .io e ∧ LineStream.readLine w.stream = .error e s)
    · apply Adds.readLine
      · exact fun line s h => ⟨h,rfl,rfl⟩
      · exact fun e s h => ⟨⟨rfl,by simp⟩,e,s,rfl,h⟩
    · rintro _ tr ⟨htr,e,s,rfl,hread⟩
      refine ⟨htr,?_⟩
      intro line next hfirst
      cases hfirst with
      | here hok _ =>
        rw [hread] at hok
        cases hok
      | skip hok _ _ =>
        rw [hread] at hok
        cases hok
    · rintro line w' _ ⟨hread,hwall,rfl⟩
      by_cases hblank : trim line = []
      · simp only [hblank,if_true]
        have hskipped : Tokenless [.received line] := .of_line (not_tokenLine_of_blank hblank)
        apply ih.mono
        · rintro line' w'' tr ⟨hfirst,hwall',tr',rfl,htr'⟩
          exact ⟨.skip hread hblank hfirst,hwall'.trans hwall,_,(List.append_assoc ..).symm,
            hskipped.append htr'⟩
        · rintro stop tr ⟨htr,hstop⟩
          refine ⟨hskipped.append htr,?_⟩
          cases stop with
          | io e =>
            intro line' next hfirst
            cases hfirst with
            | here hok hne =>
              rw [hread] at hok
              cases hok
              exact hne hblank
            | skip hok _ hrest =>
              rw [hread] at hok
              cases hok
              exact hstop line' next hrest
          | panic => exact hstop
          | outOfFuel => trivial
      · simp only [hblank,if_false]
        exact .pure ⟨.here hread hblank,hwall,[],by simp,rfl,by simp⟩

private theorem tokenValue_course (line : Text) : Adds (tokenValue connId line) w
    (fun token w' tr => w' = w ∧ tr = [] ∧ ∃ rest, stripPrefix "TOKEN " line = some rest ∧ token = trim rest)
    (fun stop tr => (∃ e, stop = .io e) ∧ stripPrefix "TOKEN " line = none ∧ Tokenless tr) := by
  unfold tokenValue
  cases hrest : stripPrefix "TOKEN " line with
  | some rest => exact .pure ⟨rfl,rfl,rest,rfl,rfl⟩
  | none =>
    dsimp only
    have hdismiss (reply : Text) (e : IoError) (w : World Stream) : Adds (do
        writeLine reply
        throw (.io e) : Session Stream Text) w (fun _ _ _ => False)
        (fun stop tr => (∃ e, stop = .io e) ∧ Tokenless tr) := by
      apply Adds.bind (R := fun _ _ tr => Tokenless tr)
        (F := fun stop tr => (∃ e, stop = .io e) ∧ Tokenless tr)
      · apply Adds.writeLine
        · exact fun s _ => ⟨rfl,by simp⟩
        · exact fun e s _ => ⟨⟨e,rfl⟩,rfl,by simp⟩
      · exact fun _ _ h => h
      · intro _ w' tr htr
        refine .throw ⟨⟨e,rfl⟩,?_⟩
        rw [List.append_nil]
        exact htr
    split
    · exact (hdismiss _ _ w).mono (fun _ _ _ h => h.elim) fun _ _ h => ⟨h.1,rfl,h.2⟩
    · apply Adds.bind (R := fun _ _ tr => Tokenless tr) (F := fun _ _ => False)
      · exact .emit ⟨rfl,by simp⟩
      · exact fun _ _ h => h.elim
      · intro _ w' tr htr
        exact (hdismiss _ _ w').mono (fun _ _ _ h => h.elim) fun _ _ h => ⟨h.1,rfl,htr.append h.2⟩

theorem receiveToken_course (fuel : Nat) : Adds (receiveToken env connId fuel) w
    (fun token w' tr => Presents env w.stream token w'.stream ∧ w'.wall = w.wall ∧ authEvents tr = [] ∧
      ∃ line rest, .received line ∈ tr ∧ stripPrefix "TOKEN " line = some rest ∧ token = trim rest)
    (fun stop tr => Tokenless tr ∧ match stop with
      | .io _ => ∀ token next, ¬Presents env w.stream token next
      | .panic => False
      | .outOfFuel => True) := by
  have hwrite (line : Text) (w : World Stream) : Adds (writeLine line) w
      (fun _ w' tr => LineStream.writeAll (utf8 line) w.stream = .ok () w'.stream ∧ w'.wall = w.wall ∧
        Tokenless tr)
      (fun stop tr => Tokenless tr ∧ ∃ e s, stop = .io e ∧
        LineStream.writeAll (utf8 line) w.stream = .error e s) := by
    apply Adds.writeLine
    · exact fun s h => ⟨h,rfl,rfl,by simp⟩
    · exact fun e s h => ⟨⟨rfl,by simp⟩,e,s,rfl,h⟩
  apply (hwrite _ w).bind
  · rintro _ tr ⟨htr,e,s,rfl,hfail⟩
    refine ⟨htr,?_⟩
    rintro token next ⟨greeted,_,_,_,hgreet,-⟩
    rw [hfail] at hgreet
    cases hgreet
  rintro _ w₁ tr₁ ⟨hgreet,hwall₁,htr₁⟩
  apply (hwrite _ w₁).bind
  · rintro _ tr ⟨htr,e,s,rfl,hfail⟩
    refine ⟨htr₁.append htr,?_⟩
    rintro token next ⟨greeted,prompted,_,_,hgreet',hprompt,-⟩
    rw [hgreet] at hgreet'
    cases hgreet'
    rw [hfail] at hprompt
    cases hprompt
  rintro _ w₂ tr₂ ⟨hprompt,hwall₂,htr₂⟩
  apply (readToken_course fuel).bind
  · rintro stop tr ⟨htr,hstop⟩
    refine ⟨htr₁.append (htr₂.append htr),?_⟩
    cases stop with
    | io e =>
      rintro token next ⟨greeted,prompted,line,_,hgreet',hprompt',hfirst,-⟩
      rw [hgreet] at hgreet'
      cases hgreet'
      rw [hprompt] at hprompt'
      cases hprompt'
      exact hstop line next hfirst
    | panic => exact hstop
    | outOfFuel => trivial
  rintro line w₃ _ ⟨hfirst,hwall₃,tr₃,rfl,htr₃⟩
  apply (tokenValue_course line).mono
  · rintro token _ _ ⟨rfl,rfl,rest,hrest,rfl⟩
    refine ⟨⟨_,_,line,rest,hgreet,hprompt,hfirst,hrest,rfl⟩,hwall₃.trans (hwall₂.trans hwall₁),?_,line,
      rest,by simp,hrest,rfl⟩
    simp only [authEvents_append,htr₁.auths,htr₂.auths,htr₃.auths]
    rfl
  · rintro _ tr ⟨⟨e,rfl⟩,hnone,htr⟩
    have hline : Tokenless [.received line] := by
      apply Tokenless.of_line
      intro htoken
      rw [IsTokenLine,hnone] at htoken
      cases htoken
    refine ⟨htr₁.append (htr₂.append ((htr₃.append hline).append htr)),?_⟩
    rintro token next ⟨greeted,prompted,line',rest,hgreet',hprompt',hfirst',hrest,-⟩
    rw [hgreet] at hgreet'
    cases hgreet'
    rw [hprompt] at hprompt'
    cases hprompt'
    obtain ⟨rfl,-⟩ := hfirst.unique hfirst'
    rw [hnone] at hrest
    cases hrest

end

/-! ## The check of the token -/

/-- The verdict on a token: none if tokens are not checked. -/
def verdictOn (env : Env) (connId : Nat) (config : Config) (keys : List SecretKey)
    (clock : ClockReadings) (stream : Stream) (token : Text) : Option TokenResult :=
  if config.checkToken then
    some (validateToken env.crypto token keys connId stream.sourceIp config.v2Only clock).val
  else none

def Admits : Option TokenResult → Prop
  | none => True
  | some (.accepted _ _) => True
  | some _ => False

/-- The label in the greeting: that of the key which validated the token. -/
def admittedLabel : Option TokenResult → Text
  | some (.accepted _ label) => label
  | _ => []

def authEventOn (connId : Nat) (client token : Text) : Option TokenResult → AuthEvent
  | none => ⟨connId,client,uuidOf token,tokenTypeOf token,"not_checked",none,none⟩
  | some (.accepted _ label) =>
    ⟨connId,client,uuidOf token,tokenTypeOf token,"accepted",some label,none⟩
  | some rejected =>
    ⟨connId,client,uuidOf token,tokenTypeOf token,"rejected",none,some (rejectReason rejected)⟩

/-- The events show one check of the token, with the verdict, and one `auth` event about it. -/
structure Authenticated (connId : Nat) (client : Text) (config : Config) (token : Text)
    (verdict : Option TokenResult) (tr : List Event) : Prop where
  auths : authEvents tr = [authEventOn connId client token verdict]
  checked : ∀ result, verdict = some result →
    ∃ ip clock, .tokenChecked token ip config.v2Only clock result ∈ tr

section
variable {env : Env} {connId : Nat} {config : Config} {keys : List SecretKey} {w : World Stream}

private theorem authEvents_logged (records : List LogRecord) :
    authEvents (records.map .logged) = [] := by
  induction records with
  | nil => rfl
  | cons record records ih => exact ih

private theorem checkToken_run (token : Text) :
    let verdict := validateToken env.crypto token keys connId w.stream.sourceIp config.v2Only w.clock
    checkToken env connId config keys token w = .ok verdict.val { w with
      wall := fun i => w.wall (i+2)
      trace := w.trace ++ verdict.records.map .logged ++
        [.tokenChecked token w.stream.sourceIp config.v2Only w.clock verdict.val] } := by
  have hpeer : peerAddr w = .ok (LineStream.peerAddr w.stream) w := rfl
  have hclock : validationClock w = .ok w.clock { w with wall := fun i => w.wall (i+2) } := rfl
  rw [checkToken,bind_ok hpeer,bind_ok hclock,bind_ok (logAll_eq _ _)]
  rfl

private theorem checkToken_course (token : Text) : Adds (checkToken env connId config keys token) w
    (fun result w' tr => result =
        (validateToken env.crypto token keys connId w.stream.sourceIp config.v2Only w.clock).val ∧
      w'.stream = w.stream ∧ authEvents tr = [] ∧
      ∃ ip clock, .tokenChecked token ip config.v2Only clock result ∈ tr) fun _ _ => False := by
  apply Adds.of_ok (checkToken_run token) (List.append_assoc ..)
  refine ⟨rfl,rfl,?_,_,_,List.mem_append_right _ (List.mem_singleton_self _)⟩
  rw [authEvents_append,authEvents_logged]
  rfl

theorem authenticate_course {sink : Sink} (hsink : sink.enabled = true) (token : Text) :
    let verdict := verdictOn env connId config keys w.clock w.stream token
    Adds (authenticate env connId config keys sink token) w
      (fun label w' tr => Admits verdict ∧ label = admittedLabel verdict ∧ w'.stream = w.stream ∧
        Authenticated connId sink.client config token verdict tr)
      (fun stop tr => ¬Admits verdict ∧ (∃ e, stop = .io e) ∧
        Authenticated connId sink.client config token verdict tr) := by
  intro verdict
  have hauth (result : Text) (label reason : Option Text) (w : World Stream) :
      Adds (auth sink connId token result label reason) w
        (fun _ w' tr => w'.stream = w.stream ∧ tr = [.auth ⟨connId,sink.client,uuidOf token,
          tokenTypeOf token,result,label,reason⟩]) fun _ _ => False := by
    unfold auth
    rw [if_pos hsink]
    exact .emit ⟨rfl,rfl⟩
  have hlog (level : Level) (text : Text) (w : World Stream) : Adds (log level text) w
      (fun _ w' tr => w'.stream = w.stream ∧ authEvents tr = []) fun _ _ => False := .emit ⟨rfl,rfl⟩
  unfold authenticate
  cases hcheck : config.checkToken with
  | false =>
    have hverdict : verdict = none := if_neg (by simp [hcheck])
    rw [hverdict]
    simp only [Bool.false_eq_true,if_false]
    apply (hlog _ _ w).bind fun _ _ h => h.elim
    rintro _ w₁ tr₁ ⟨hw₁,htr₁⟩
    apply (hauth _ _ _ w₁).bind fun _ _ h => h.elim
    rintro _ w₂ _ ⟨hw₂,rfl⟩
    refine .pure ⟨trivial,rfl,hw₂.trans hw₁,?_,by simp⟩
    rw [authEvents_append,htr₁]
    rfl
  | true =>
    simp only [if_true]
    apply (checkToken_course token).bind fun _ _ h => h.elim
    rintro result w₁ tr₁ ⟨hresult,hw₁,htr₁,ip,clock,hchecked⟩
    have hverdict : verdict = some result := by
      rw [hresult]
      exact if_pos hcheck
    rw [hverdict]
    have hshown {tr : List Event}
        (htr : authEvents tr = [authEventOn connId sink.client token (some result)]) :
        Authenticated connId sink.client config token (some result) (tr₁ ++ tr) := by
      constructor
      · rw [authEvents_append,htr₁,htr,List.nil_append]
      · rintro _ ⟨⟩
        exact ⟨ip,clock,List.mem_append_left _ hchecked⟩
    have hreject (hrefused : ¬Admits (some result)) (hevent : authEventOn connId sink.client token
        (some result) = ⟨connId,sink.client,uuidOf token,tokenTypeOf token,"rejected",none,
          some (rejectReason result)⟩) : Adds (do
        auth sink connId token "rejected" none (some (rejectReason result))
        writeLine "ERR\n"
        throw (.io tokenRejected) : Session Stream Text) w₁
        (fun label w' tr => Admits (some result) ∧ label = admittedLabel (some result) ∧
          w'.stream = w.stream ∧ Authenticated connId sink.client config token (some result) (tr₁ ++ tr))
        (fun stop tr => ¬Admits (some result) ∧ (∃ e, stop = .io e) ∧
          Authenticated connId sink.client config token (some result) (tr₁ ++ tr)) := by
      apply (hauth _ _ _ w₁).bind fun _ _ h => h.elim
      rintro _ w₂ _ ⟨-,rfl⟩
      have hevents {tr : List Event} (htr : authEvents tr = []) :
          Authenticated connId sink.client config token (some result) (tr₁ ++ (.auth ⟨connId,sink.client,
            uuidOf token,tokenTypeOf token,"rejected",none,some (rejectReason result)⟩::tr)) := by
        apply hshown
        rw [hevent]
        exact congrArg _ htr
      apply Adds.bind (R := fun _ _ tr => authEvents tr = [])
        (F := fun stop tr => (∃ e, stop = .io e) ∧ authEvents tr = [])
      · apply Adds.writeLine
        · exact fun s _ => rfl
        · exact fun e s _ => ⟨⟨e,rfl⟩,rfl⟩
      · exact fun _ tr h => ⟨hrefused,h.1,hevents h.2⟩
      · intro _ w₃ tr htr
        refine .throw ⟨hrefused,⟨_,rfl⟩,hevents ?_⟩
        rw [List.append_nil]
        exact htr
    cases result with
    | accepted secs label =>
      apply (hlog _ _ w₁).bind fun _ _ h => h.elim
      rintro _ w₂ tr₂ ⟨hw₂,htr₂⟩
      apply (hauth _ _ _ w₂).bind fun _ _ h => h.elim
      rintro _ w₃ _ ⟨hw₃,rfl⟩
      have hstream : w₃.stream = w.stream := hw₃.trans (hw₂.trans hw₁)
      have hevents {tr : List Event} (htr : authEvents tr = []) : Authenticated connId sink.client config
          token (some (.accepted secs label)) (tr₁ ++ (tr₂ ++ (.auth ⟨connId,sink.client,uuidOf token,
            tokenTypeOf token,"accepted",some label,none⟩::tr))) := by
        apply hshown
        rw [authEvents_append,htr₂,List.nil_append]
        exact congrArg (authEventOn connId sink.client token (some (.accepted secs label))::·) htr
      split
      · apply Adds.bind (R := fun _ w' tr => w'.stream = w₃.stream ∧ authEvents tr = [])
          (F := fun _ _ => False)
        · exact .emit ⟨rfl,rfl⟩
        · exact fun _ _ h => h.elim
        · rintro _ w₄ tr₄ ⟨hw₄,htr₄⟩
          refine .pure ⟨trivial,rfl,hw₄.trans hstream,hevents ?_⟩
          rw [List.append_nil]
          exact htr₄
      · exact .pure ⟨trivial,rfl,hstream,hevents rfl⟩
    | _ => exact hreject id rfl

end

/-! ## Greeting and commands -/

/-- The events show the `TOKEN` line and what the check of its token said. -/
structure Shown (connId : Nat) (client : Text) (config : Config) (token : Text)
    (verdict : Option TokenResult) (tr : List Event) : Prop
    extends Authenticated connId client config token verdict tr where
  read : ∃ line rest, .received line ∈ tr ∧ stripPrefix "TOKEN " line = some rest ∧ token = trim rest

theorem Shown.append {connId : Nat} {client : Text} {config : Config} {token : Text}
    {verdict : Option TokenResult} {tr tr' : List Event}
    (h : Shown connId client config token verdict tr) (htr' : authEvents tr' = []) :
    Shown connId client config token verdict (tr ++ tr') where
  auths := by rw [authEvents_append,h.auths,htr',List.append_nil]
  checked result hresult := by
    obtain ⟨ip,clock,hmem⟩ := h.checked result hresult
    exact ⟨ip,clock,List.mem_append_left _ hmem⟩
  read := by
    obtain ⟨line,rest,hmem,hrest⟩ := h.read
    exact ⟨line,rest,List.mem_append_left _ hmem,hrest⟩

theorem Shown.before {connId : Nat} {client : Text} {config : Config} {token : Text}
    {verdict : Option TokenResult} {tr tr' : List Event}
    (h : Shown connId client config token verdict tr) (htr' : authEvents tr' = []) :
    Shown connId client config token verdict (tr' ++ tr) where
  auths := by rw [authEvents_append,h.auths,htr',List.nil_append]
  checked result hresult := by
    obtain ⟨ip,clock,hmem⟩ := h.checked result hresult
    exact ⟨ip,clock,List.mem_append_right _ hmem⟩
  read := by
    obtain ⟨line,rest,hmem,hrest⟩ := h.read
    exact ⟨line,rest,List.mem_append_right _ hmem,hrest⟩

/-- How a session goes, told from the tokens it presents: there is none, or the greeting ends with
it, or it is admitted and acknowledged. -/
inductive Course (presents : Text → Stream → Prop) (verdict : Stream → Text → Option TokenResult)
    (connId : Nat) (client : Text) (config : Config) (tr : List Event) : Option Greeting → Prop
  | silent (absent : ∀ token next, ¬presents token next) (tokenless : Tokenless tr) :
      Course presents verdict connId client config tr none
  | dismissed {token : Text} {next : Stream} (presented : presents token next)
      (ends : ¬(Admits (verdict next token) ∧ Acknowledges next))
      (shown : Shown connId client config token (verdict next token) tr) :
      Course presents verdict connId client config tr none
  | greeted {token : Text} {next : Stream} (presented : presents token next)
      (admits : Admits (verdict next token)) (acknowledges : Acknowledges next)
      (shown : Shown connId client config token (verdict next token) tr) :
      Course presents verdict connId client config tr
        (some ⟨uuidOf token,tokenTypeOf token,admittedLabel (verdict next token)⟩)

namespace Course

variable {presents : Text → Stream → Prop} {verdict : Stream → Text → Option TokenResult}
  {connId : Nat} {client : Text} {config : Config} {tr tr' : List Event} {greeting : Option Greeting}

theorem before (h : Course presents verdict connId client config tr greeting) (htr' : Tokenless tr') :
    Course presents verdict connId client config (tr' ++ tr) greeting := by
  cases h with
  | silent absent tokenless => exact .silent absent (htr'.append tokenless)
  | dismissed presented ends shown => exact .dismissed presented ends (shown.before htr'.auths)
  | greeted presented admits acknowledges shown =>
    exact .greeted presented admits acknowledges (shown.before htr'.auths)

theorem after (h : Course presents verdict connId client config tr greeting)
    (hauths : authEvents tr' = []) (htr' : greeting = none → Tokenless tr') :
    Course presents verdict connId client config (tr ++ tr') greeting := by
  cases h with
  | silent absent tokenless => exact .silent absent (tokenless.append (htr' rfl))
  | dismissed presented ends shown => exact .dismissed presented ends (shown.append hauths)
  | greeted presented admits acknowledges shown =>
    exact .greeted presented admits acknowledges (shown.append hauths)

theorem congr {presents' : Text → Stream → Prop} (h : Course presents verdict connId client config tr
    greeting) (hpresents : ∀ token next, presents token next ↔ presents' token next) :
    Course presents' verdict connId client config tr greeting := by
  have heq : presents = presents' := funext fun token => funext fun next => propext (hpresents token next)
  rw [← heq]
  exact h

theorem authEvents_le (h : Course presents verdict connId client config tr greeting) :
    (authEvents tr).length ≤ 1 := by
  cases h with
  | silent absent tokenless =>
    rw [tokenless.auths]
    exact Nat.zero_le 1
  | dismissed presented ends shown =>
    rw [shown.auths]
    exact Nat.le_refl 1
  | greeted presented admits acknowledges shown =>
    rw [shown.auths]
    exact Nat.le_refl 1

end Course

section
variable {env : Env} {connId : Nat} {config : Config} {keys : List SecretKey} {sink : Sink}
  {w : World Stream}

private theorem acknowledge_course (greeting : Greeting) : Adds (do
      writeLine "OK\n"
      writeLine chunkSizeLine
      return greeting : Session Stream Greeting) w
    (fun a _ tr => a = greeting ∧ Acknowledges w.stream ∧ authEvents tr = [])
    (fun stop tr => (∃ e, stop = .io e) ∧ ¬Acknowledges w.stream ∧ authEvents tr = []) := by
  have hwrite (line : Text) (w : World Stream) : Adds (writeLine line) w
      (fun _ w' tr => LineStream.writeAll (utf8 line) w.stream = .ok () w'.stream ∧ authEvents tr = [])
      (fun stop tr => ∃ e s, stop = .io e ∧ LineStream.writeAll (utf8 line) w.stream = .error e s ∧
        authEvents tr = []) := by
    apply Adds.writeLine
    · exact fun s h => ⟨h,rfl⟩
    · exact fun e s h => ⟨e,s,rfl,h,rfl⟩
  apply (hwrite _ w).bind
  · rintro _ tr ⟨e,s,rfl,hfail,htr⟩
    refine ⟨⟨e,rfl⟩,?_,htr⟩
    rintro ⟨accepted,_,hok,-⟩
    rw [hfail] at hok
    cases hok
  rintro _ w₁ tr₁ ⟨hok,htr₁⟩
  apply (hwrite _ w₁).bind
  · rintro _ tr ⟨e,s,rfl,hfail,htr⟩
    refine ⟨⟨e,rfl⟩,?_,?_⟩
    · rintro ⟨accepted,_,hok',hready⟩
      rw [hok] at hok'
      cases hok'
      rw [hfail] at hready
      cases hready
    · rw [authEvents_append,htr₁,htr,List.append_nil]
  rintro _ w₂ tr₂ ⟨hready,htr₂⟩
  refine .pure ⟨rfl,⟨_,_,hok,hready⟩,?_⟩
  simp only [authEvents_append,htr₁,htr₂]
  rfl

theorem runGreeting_course (hsink : sink.enabled = true) (fuel : Nat) :
    Adds (runGreeting env connId config keys sink fuel) w
      (fun greeting _ tr => Course (Presents env w.stream)
        (verdictOn env connId config keys w.clock) connId sink.client config tr (some greeting))
      (fun stop tr => match stop with
        | .io _ => Course (Presents env w.stream) (verdictOn env connId config keys w.clock) connId
            sink.client config tr none
        | .panic => False
        | .outOfFuel => Tokenless tr) := by
  rw [Tidies.runGreeting_eq]
  apply (receiveToken_course fuel).bind
  · rintro stop tr ⟨htr,hstop⟩
    cases stop with
    | io e => exact .silent hstop htr
    | panic => exact hstop
    | outOfFuel => exact htr
  rintro token w₁ tr₁ ⟨hpresents,hwall,htr₁,line,rest,hline,hrest,rfl⟩
  have hclock : w₁.clock = w.clock := by
    unfold World.clock
    rw [hwall]
  have hshown {tr : List Event} {verdict : Option TokenResult}
      (h : Authenticated connId sink.client config (trim rest) verdict tr) :
      Shown connId sink.client config (trim rest) verdict (tr₁ ++ tr) := by
    refine ⟨⟨?_,?_⟩,line,rest,List.mem_append_left _ hline,hrest,rfl⟩
    · rw [authEvents_append,htr₁,h.auths,List.nil_append]
    · intro result hresult
      obtain ⟨ip,clock,hmem⟩ := h.checked result hresult
      exact ⟨ip,clock,List.mem_append_right _ hmem⟩
  apply (authenticate_course hsink (trim rest)).bind
  · rintro _ tr ⟨hrefused,⟨e,rfl⟩,htr⟩
    rw [hclock] at hrefused htr
    exact .dismissed hpresents (fun h => hrefused h.1) (hshown htr)
  rintro label w₂ tr₂ ⟨hadmits,rfl,hstream,htr₂⟩
  rw [hclock] at hadmits htr₂ ⊢
  apply (acknowledge_course _).mono
  · rintro _ w₃ tr₃ ⟨rfl,hacknowledges,htr₃⟩
    rw [hstream] at hacknowledges
    rw [← List.append_assoc]
    exact .greeted hpresents hadmits hacknowledges ((hshown htr₂).append htr₃)
  · rintro _ tr₃ ⟨⟨e,rfl⟩,hfails,htr₃⟩
    rw [hstream] at hfails
    rw [← List.append_assoc]
    exact .dismissed hpresents (fun h => hfails h.2) ((hshown htr₂).append htr₃)

private theorem runCommands_course (uuid : Text) (fuel : Nat) :
    Adds (runCommands env connId uuid fuel) w (fun _ _ tr => authEvents tr = [])
      (fun stop tr => stop ≠ .panic ∧ authEvents tr = []) := by
  have hloop : LoopRules (σ := Stream) connId uuid (Appends fun e => e.authEvent = none) :=
    { toHandlerRules := Appends.handlerRules (fun _ => rfl) (fun _ => rfl) (fun _ => rfl) fun _ => rfl
      stats := .silent fun _ => rfl
      command := fun _ _ _ => .emit rfl
      logCommand := fun _ => .emit rfl
      logQuit := .emit rfl
      logUnknown := fun _ => .emit rfl }
  have happends : Appends (fun e => e.authEvent = none)
      (runCommands env connId uuid fuel : Session Stream Unit) := by
    apply Appends.bind
    · exact .emit rfl
    · exact fun _ => (Appends.silent fun _ => rfl).bind fun _ => hloop.commandLoop env fuel
  obtain ⟨tr,htr,hquiet⟩ := happends w
  have hauths : authEvents tr = [] := List.filterMap_eq_nil_iff.mpr hquiet
  obtain ⟨_,-,-,hrun⟩ := runCommands_grammar env connId uuid fuel w
  unfold Adds
  cases hw : runCommands env connId uuid fuel w with
  | ok u w' =>
    rw [hw] at htr
    exact ⟨tr,htr,hauths⟩
  | error stop w' =>
    rw [hw] at htr hrun
    exact ⟨tr,htr,hrun.1,hauths⟩

/-- Greeting and command loop of one connection: the greeting is there if and only if it succeeded, and
only then is the end another one than a failed authentication. -/
theorem serveStream_course (hsink : sink.enabled = true) (fuel : Nat) :
    Adds (serveStream env connId config keys sink fuel) w
      (fun r _ tr => Course (Presents env w.stream) (verdictOn env connId config keys w.clock) connId
        sink.client config tr r.2 ∧ (r.1 = .authFailed ↔ r.2 = none))
      (fun stop tr => stop = .outOfFuel ∧ (authEvents tr).length ≤ 1) := by
  apply (runGreeting_course hsink fuel).attempt.bind
  · rintro stop tr ⟨hio,hstop⟩
    cases stop with
    | io e => exact absurd rfl (hio e)
    | panic => exact hstop.elim
    | outOfFuel => exact ⟨rfl,by rw [hstop.auths]; exact Nat.zero_le 1⟩
  intro result w₁ tr₁ hresult
  cases result with
  | error e =>
    have hlogged (record : LogRecord) : Tokenless [.logged record] := ⟨rfl,by simp⟩
    exact .log ⟨hresult.after rfl fun _ => hlogged _,by simp⟩
  | ok greeting =>
    dsimp only at hresult ⊢
    apply (runCommands_course greeting.uuid fuel).attempt.bind
    · rintro stop tr ⟨hio,hpanic,htr⟩
      cases stop with
      | io e => exact absurd rfl (hio e)
      | panic => exact absurd rfl hpanic
      | outOfFuel =>
        refine ⟨rfl,?_⟩
        rw [authEvents_append,htr,List.append_nil]
        exact hresult.authEvents_le
    intro ended w₂ tr₂ hended
    have hgreeted {tr : List Event} (htr : authEvents tr = []) : Course (Presents env w.stream)
        (verdictOn env connId config keys w.clock) connId sink.client config (tr₁ ++ tr)
        (some greeting) := hresult.after htr fun hnone => by cases hnone
    cases ended with
    | ok _ =>
      refine .pure ⟨?_,by simp⟩
      rw [List.append_nil]
      exact hgreeted hended
    | error e =>
      have hreason : ¬endReason e = .authFailed := by
        unfold endReason
        split
        all_goals simp
      dsimp only at hended ⊢
      split
      · refine .log ⟨hgreeted ?_,by simp [hreason]⟩
        rw [authEvents_append,hended.2]
        rfl
      · refine .pure ⟨?_,by simp [hreason]⟩
        rw [List.append_nil]
        exact hgreeted hended.2

end

end Rmbtd
