import Rmbtd.Protocol.Rules
import Rmbtd.Server.Handler
import Rmbtd.Stream.ErrorText

/-!
# Rules for the log of a session

What it takes for a program to log records of one line only. The rules follow the program
constructs; the greeting is the one part of the protocol that shows client text as it is.
-/

namespace Rmbtd

open Effect Session

variable {own : Text → Prop}

/-! ## Sessions -/

/-- The records so far are tidy, and the errors still to come are of one line. -/
structure Tidy {σ : Type} (errors : σ → List IoError) (own : Text → Prop) (w : World σ) : Prop where
  owned : Owned own (errors w.stream)
  records : ∀ record, .logged record ∈ w.trace → record.Tidy own

def Event.record : Event → Option LogRecord
  | .logged record => some record
  | _ => none

/-- An I/O error a program stops with is of one line. -/
def Stop.OneLine (own : Text → Prop) (stop : Stop) : Prop :=
  ∀ e, stop = .io e → Rmbtd.OneLine own e.message

/-- Run from `w`, the program keeps the records tidy and returns one of `V`. -/
def Tidies {σ α : Type} (errors : σ → List IoError) (own : Text → Prop) (V : α → Prop)
    (m : Session σ α) (w : World σ) : Prop :=
  Tidy errors own w → match m w with
    | .ok a w' => V a ∧ Tidy errors own w'
    | .error stop w' => stop.OneLine own ∧ Tidy errors own w'

namespace Tidies

variable {σ α β : Type} {errors : σ → List IoError} {V : α → Prop} {W : β → Prop} {w : World σ}

theorem bind {m : Session σ α} {f : α → Session σ β} (hm : Tidies errors own V m w)
    (hf : ∀ a w', V a → m w = .ok a w' → Tidies errors own W (f a) w') :
    Tidies errors own W (m >>= f) w := by
  intro hw
  have h := hm hw
  rw [bind_apply]
  cases hmw : m w with
  | ok a w' =>
    rw [hmw] at h
    exact hf a w' h.1 hmw h.2
  | error stop w' =>
    rw [hmw] at h
    exact h

theorem final {m : Session σ α} (hm : Tidies errors own V m w) (hw : Tidy errors own w) :
    Tidy errors own (Effect.final (m w)) := by
  have h := hm hw
  cases hmw : m w with
  | ok a w' =>
    rw [hmw] at h
    exact h.2
  | error stop w' =>
    rw [hmw] at h
    exact h.2

theorem mono {V' : α → Prop} {m : Session σ α} (hm : Tidies errors own V m w)
    (h : ∀ a, V a → V' a) : Tidies errors own V' m w := by
  intro hw
  have hm := hm hw
  cases hmw : m w with
  | ok a w' =>
    rw [hmw] at hm
    exact ⟨h a hm.1,hm.2⟩
  | error stop w' =>
    rw [hmw] at hm
    exact hm

theorem silent {m : Session σ α} {a : α} {w' : World σ} (h : m w = .ok a w')
    (hstream : w'.stream = w.stream) (htrace : w'.trace = w.trace) (ha : V a) :
    Tidies errors own V m w := by
  intro hw
  rw [h]
  refine ⟨ha,?_,?_⟩
  · rw [hstream]
    exact hw.owned
  · rw [htrace]
    exact hw.records

theorem pure {a : α} (ha : V a) : Tidies errors own V (Pure.pure a) w := silent rfl rfl rfl ha

theorem throw {stop : Stop} (h : stop.OneLine own) :
    Tidies errors own V (MonadExcept.throw stop : Session σ α) w :=
  fun hw => ⟨h,hw⟩

theorem throwIo {e : IoError} (he : Unbroken e.message) :
    Tidies errors own V (MonadExcept.throw (.io e) : Session σ α) w := by
  apply throw
  intro e' he'
  cases he'
  exact .of_unbroken he

theorem panic : Tidies errors own V (MonadExcept.throw .panic : Session σ α) w := throw nofun

theorem outOfFuel : Tidies errors own V (MonadExcept.throw .outOfFuel : Session σ α) w := throw nofun

private theorem append {tr : List Event} (hw : Tidy errors own w)
    (htr : ∀ record, .logged record ∈ tr → record.Tidy own) :
    Tidy errors own { w with trace := w.trace ++ tr } := by
  refine ⟨hw.owned,?_⟩
  intro record hrecord
  rcases List.mem_append.mp hrecord with hrecord | hrecord
  · exact hw.records record hrecord
  · exact htr record hrecord

theorem emit {e : Event} (he : e.record = none) :
    Tidies errors own (fun _ => True) (Session.emit e : Session σ Unit) w := by
  intro hw
  refine ⟨trivial,append hw ?_⟩
  intro record hrecord
  rw [← List.mem_singleton.mp hrecord] at he
  cases he

theorem log {level : Level} {text : Text} {quoted : Option Text}
    (h : level.isSevere → OneLine own text) :
    Tidies errors own (fun _ => True) (Session.log level text quoted : Session σ Unit) w := by
  intro hw
  refine ⟨trivial,append hw ?_⟩
  intro record hrecord
  rw [Event.logged.inj (List.mem_singleton.mp hrecord)]
  exact h

theorem debug {text : Text} {quoted : Option Text} :
    Tidies errors own (fun _ => True) (Session.log .debug text quoted : Session σ Unit) w :=
  log fun h => absurd h (by simp [Level.isSevere])

theorem logAll {records : List LogRecord} (h : ∀ r ∈ records, r.Tidy own) :
    Tidies errors own (fun _ => True) (Session.logAll records : Session σ Unit) w := by
  intro hw
  rw [logAll_eq]
  refine ⟨trivial,append hw ?_⟩
  intro record hrecord
  obtain ⟨r,hr,heq⟩ := List.mem_map.mp hrecord
  rw [← Event.logged.inj heq]
  exact h r hr

theorem logged {m : Logged α} (h : m.Gives own V) :
    Tidies errors own V (Session.logged m : Session σ α) w :=
  (logAll h.records).bind fun _ _ _ _ => pure h.val

theorem onStream {m : EStateM IoError σ α} (hm : Sound errors own m) :
    Tidies errors own (fun _ => True) (Session.onStream m) w := by
  intro hw
  have h := hm w.stream hw.owned
  cases hms : m w.stream with
  | ok a s =>
    rw [hms] at h
    rw [onStream_ok hms]
    exact ⟨trivial,h,hw.records⟩
  | error e s =>
    rw [hms] at h
    rw [onStream_error hms]
    refine ⟨?_,h.2,hw.records⟩
    intro e' he'
    cases he'
    exact h.1

theorem attempt {m : Session σ α} (hm : Tidies errors own V m w) :
    Tidies errors own (fun r => match r with
      | .ok a => V a
      | .error e => OneLine own e.message) (Rmbtd.attempt m) w := by
  intro hw
  have h := hm hw
  unfold Rmbtd.attempt
  cases hmw : m w with
  | ok a w' =>
    rw [hmw] at h
    exact h
  | error stop w' =>
    rw [hmw] at h
    cases stop with
    | io e => exact ⟨h.1 e rfl,h.2⟩
    | panic => exact h
    | outOfFuel => exact h

end Tidies

/-! ## Commands -/

namespace Tidies

variable {w : World Stream}

theorem readLine : Tidies Stream.errors own (fun _ => True) (Session.readLine : Session Stream Text) w :=
  bind (onStream Stream.sound_readLine) fun _ _ _ _ =>
    bind (emit rfl) fun _ _ _ _ => pure trivial

theorem writeLine (line : Text) :
    Tidies Stream.errors own (fun _ => True) (Session.writeLine line : Session Stream Unit) w :=
  bind (emit rfl) fun _ _ _ _ => onStream (Stream.sound_writeAll _)

private theorem loopRules (connId : Nat) {uuid : Text} (huuid : Unbroken uuid) :
    LoopRules (σ := Stream) connId uuid fun m => ∀ w, Tidies Stream.errors own (fun _ => True) m w where
  pure _ _ := pure trivial
  panic _ := panic
  outOfFuel _ := outOfFuel
  bind hm hf w := bind (hm w) fun a w' _ _ => hf a w'
  readLine _ := readLine
  readExact n _ := bind (onStream (Stream.sound_readExact n)) fun _ _ _ _ =>
    bind (emit rfl) fun _ _ _ _ => pure trivial
  writeLine line _ := writeLine line
  writeChunk bytes _ := bind (emit rfl) fun _ _ _ _ => onStream (Stream.sound_writeAll bytes)
  instant _ := silent rfl rfl rfl trivial
  chunkSize _ := silent rfl rfl rfl trivial
  setChunkSize _ _ := silent rfl rfl rfl trivial
  updateStats _ _ := silent rfl rfl rfl trivial
  stats _ := silent rfl rfl rfl trivial
  command _ _ _ _ := emit rfl
  logCommand _ _ := debug
  logQuit _ := log fun _ => .of_unbroken (by simp [huuid])
  logUnknown _ _ := log fun _ => .of_unbroken (by simp)

theorem runCommands (env : Env) (connId : Nat) {uuid : Text} (huuid : Unbroken uuid) (fuel : Nat) :
    Tidies Stream.errors own (fun _ => True) (Rmbtd.runCommands env connId uuid fuel) w :=
  bind (emit rfl) fun _ w' _ _ =>
    bind ((loopRules connId huuid).setChunkSize _ w') fun _ w' _ _ =>
      (loopRules connId huuid).commandLoop env fuel w'

end Tidies

/-! ## Greeting -/

def Stream.sourceIp (stream : Stream) : Option IpAddr := (LineStream.peerAddr stream).map SocketAddr.ip

/-- Whether a token's uuid is logged: it is not checked, it is accepted, or it is a v1 token that
no key matches. -/
def ShowsUuid (cr : Crypto) (connId : Nat) (config : Config) (keys : List SecretKey)
    (sourceIp : Option IpAddr) (clock : ClockReadings) (token : Text) : Prop :=
  let verdict := (validateToken cr token keys connId sourceIp config.v2Only clock).val
  config.checkToken = false ∨ (∃ secs label, verdict = .accepted secs label) ∨
    extractV2 token = none ∧ verdict = .invalidHmac

def World.clock {σ : Type} (w : World σ) : ClockReadings := ⟨w.wall 0,w.wall 1⟩

/-- The greeting up to the value of the `TOKEN` line. -/
def receiveToken (env : Env) (connId fuel : Nat) : Session Stream Text := do
  writeLine (greetingLine env.version)
  writeLine acceptTokenLine
  tokenValue connId (← readToken fuel)

section
variable {cr : Crypto} {env : Env} {connId : Nat} {config : Config} {keys : List SecretKey}
  {w : World Stream}

namespace Tidies

theorem readToken (fuel : Nat) : Tidies Stream.errors own (fun _ => True) (Rmbtd.readToken fuel) w := by
  induction fuel generalizing w with
  | zero => exact outOfFuel
  | succ fuel ih =>
    apply readLine.bind
    intro line w' _ _
    split
    · exact ih
    · exact pure trivial

theorem tokenValue (line : Text) :
    Tidies Stream.errors own (fun _ => True) (Rmbtd.tokenValue connId line) w := by
  unfold Rmbtd.tokenValue
  split
  · exact pure trivial
  split
  · apply (writeLine "BYE\n").bind
    intro _ _ _ _
    exact throwIo (by simp [quitBeforeToken])
  · apply bind (log fun _ => .of_unbroken (by simp))
    intro _ _ _ _
    apply (writeLine "ERR\n").bind
    intro _ _ _ _
    exact throwIo (by simp [expectedToken])

theorem receiveToken (fuel : Nat) :
    Tidies Stream.errors own (fun _ => True) (Rmbtd.receiveToken env connId fuel) w := by
  apply (writeLine _).bind
  intro _ _ _ _
  apply (writeLine _).bind
  intro _ _ _ _
  exact (readToken fuel).bind fun line _ _ _ => tokenValue line

theorem authEvent (sink : Sink) (token result : Text) (label reason : Option Text) :
    Tidies Stream.errors own (fun _ => True) (auth sink connId token result label reason) w := by
  unfold auth
  split
  · exact emit rfl
  · exact pure trivial

variable (hkeys : ∀ key ∈ keys, own key.label)
include hkeys

theorem checkToken {token : Text} (h : ShowsUuid env.crypto connId config keys w.stream.sourceIp
      w.clock token → Unbroken (uuidOf token)) :
    Tidies Stream.errors own (fun verdict => ∀ secs label, verdict = .accepted secs label →
      own label ∧ Unbroken (uuidOf token)) (Rmbtd.checkToken env connId config keys token) w := by
  have hgives : (validateToken env.crypto token keys connId w.stream.sourceIp config.v2Only
      w.clock).Gives own _ :=
    validateToken_gives hkeys fun hraw hverdict => h (Or.inr (Or.inr ⟨hraw,hverdict⟩))
  have hpeer : Tidies Stream.errors own (· = LineStream.peerAddr w.stream) peerAddr w :=
    silent rfl rfl rfl rfl
  have hclock : Tidies Stream.errors own (· = w.clock) validationClock w := silent rfl rfl rfl rfl
  apply hpeer.bind
  rintro _ _ rfl hsame
  cases hsame
  apply hclock.bind
  rintro _ _ rfl _
  apply (logAll hgives.records).bind
  intro _ _ _ _
  apply bind (emit rfl)
  intro _ _ _ _
  apply pure
  intro secs label hlabel
  exact ⟨hgives.val secs label hlabel,h (Or.inr (Or.inl ⟨secs,label,hlabel⟩))⟩

theorem authenticate (sink : Sink) {token : Text} (h : ShowsUuid env.crypto connId config keys
      w.stream.sourceIp w.clock token → Unbroken (uuidOf token)) :
    Tidies Stream.errors own (fun _ => Unbroken (uuidOf token))
      (Rmbtd.authenticate env connId config keys sink token) w := by
  unfold Rmbtd.authenticate
  split
  · apply (checkToken hkeys h).bind
    intro verdict _ hverdict _
    split
    · next secs label _ =>
      obtain ⟨hlabel,huuid⟩ := hverdict secs label rfl
      apply bind (log fun _ => .between hlabel (by simp [huuid]) (by decide))
      intro _ _ _ _
      apply (authEvent sink token _ _ _).bind
      intro _ _ _ _
      split
      · exact bind (emit rfl) fun _ _ _ _ => pure huuid
      · exact bind (V := fun _ => True) (pure trivial) fun _ _ _ _ => pure huuid
    · apply (authEvent sink token _ _ _).bind
      intro _ _ _ _
      apply (writeLine "ERR\n").bind
      intro _ _ _ _
      exact throwIo (by simp [tokenRejected])
  · next hcheck =>
    have huuid := h (Or.inl (by simpa using hcheck))
    apply bind (log fun _ => .of_unbroken (by simp [huuid]))
    intro _ _ _ _
    exact (authEvent sink token _ _ _).bind fun _ _ _ _ => pure huuid

omit hkeys in
theorem runGreeting_eq (sink : Sink) (fuel : Nat) :
    runGreeting env connId config keys sink fuel = (do
      let token ← Rmbtd.receiveToken env connId fuel
      let label ← Rmbtd.authenticate env connId config keys sink token
      Session.writeLine "OK\n"
      Session.writeLine chunkSizeLine
      return ⟨uuidOf token,tokenTypeOf token,label⟩ : Session Stream Greeting) := by
  simp only [runGreeting,Rmbtd.receiveToken,bind_assoc]

theorem runGreeting (sink : Sink) (fuel : Nat) (h : ∀ token w',
      Rmbtd.receiveToken env connId fuel w = .ok token w' →
      ShowsUuid env.crypto connId config keys w'.stream.sourceIp w'.clock token →
      Unbroken (uuidOf token)) :
    Tidies Stream.errors own (fun greeting => Unbroken greeting.uuid)
      (Rmbtd.runGreeting env connId config keys sink fuel) w := by
  rw [runGreeting_eq]
  apply (receiveToken fuel).bind
  intro token w' _ htoken
  apply (authenticate hkeys sink (h token w' htoken)).bind
  intro label _ huuid _
  apply (writeLine "OK\n").bind
  intro _ _ _ _
  exact (writeLine chunkSizeLine).bind fun _ _ _ _ => pure huuid

theorem serveStream (sink : Sink) (fuel : Nat) (h : ∀ token w',
      Rmbtd.receiveToken env connId fuel w = .ok token w' →
      ShowsUuid env.crypto connId config keys w'.stream.sourceIp w'.clock token →
      Unbroken (uuidOf token)) :
    Tidies Stream.errors own (fun r => ∀ greeting, r.2 = some greeting → Unbroken greeting.uuid)
      (Rmbtd.serveStream env connId config keys sink fuel) w := by
  apply (attempt (runGreeting hkeys sink fuel h)).bind
  intro greeted _ hgreeted _
  cases greeted with
  | error e =>
    apply bind (log fun _ => (OneLine.of_unbroken (by simp)).append hgreeted)
    exact fun _ _ _ _ => pure nofun
  | ok greeting =>
    have hall (reason : EndReason) (w : World Stream) : Tidies Stream.errors own
        (fun r => ∀ greeting, r.2 = some greeting → Unbroken greeting.uuid)
        (Pure.pure (reason,some greeting)) w := by
      apply pure
      intro greeting' heq
      cases heq
      exact hgreeted
    apply (attempt (runCommands env connId hgreeted fuel)).bind
    intro ended _ _ _
    cases ended with
    | ok _ => exact hall _ _
    | error e =>
      dsimp only
      split
      · exact bind debug fun _ _ _ _ => hall _ _
      · exact hall _ _

end Tidies

end

end Rmbtd
