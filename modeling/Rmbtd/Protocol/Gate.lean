import Rmbtd.Library.Transition
import Rmbtd.Protocol.Simulation
import Rmbtd.Protocol.Validation
import Rmbtd.Server.Connection

/-!
# The authentication gate

A session with token check moves through the phases of an automaton that reads its trace. Only in
the last phase does the server answer `OK`, and the only way there is through the one token
evaluation with the verdict of acceptance.
-/

namespace Rmbtd

open Effect Session Transition

/-! ## Events -/

namespace Event

/-- What a client gets to see only when its token was accepted. -/
def privileged : Event → Bool
  | .sentLine line => line = "OK\n" ∨ line = chunkSizeLine ∨ line = acceptLine
  | .sentChunk _ => true
  | .receivedChunk _ => true
  | .commandsStarted => true
  | .command _ _ _ => true
  | _ => false

def isCheck : Event → Bool
  | .tokenChecked _ _ _ _ _ => true
  | _ => false

def Outside (e : Event) : Prop := e.privileged = false ∧ e.isCheck = false

end Event

/-! ## The automaton -/

/-- What the evaluation of the session's token works with. -/
structure Gate where
  sourceIp : Option IpAddr
  v2Only : Bool
  clock : ClockReadings
  verdict : Text → TokenResult

inductive Phase
  | waiting
  | presented (line : Text)
  | refused
  | dismissed
  | owing (secs : UInt64)
  | cleared

namespace Gate

def afterVerdict : TokenResult → Phase
  | .accepted secs _ => if 0 < secs then .owing secs else .cleared
  | _ => .refused

/-- The phase after an event, if the event is allowed. -/
def next (g : Gate) : Phase → Event → Option Phase
  | .waiting, .received line => some (if trim line = [] then .waiting else .presented line)
  | .waiting, e => if e.privileged ∨ e.isCheck then none else some .waiting
  | .presented _, .received _ => none
  | .presented line, .tokenChecked token ip v2Only clock result =>
    if (stripPrefix "TOKEN " line).map trim = some token ∧ ip = g.sourceIp ∧ v2Only = g.v2Only ∧
      clock = g.clock ∧ result = g.verdict token then some (afterVerdict result) else none
  | .presented line, e => if e.privileged then none else some (.presented line)
  | .refused, .sentLine line => if line = "ERR\n" then some .dismissed else none
  | .refused, .logged _ => some .refused
  | .refused, .auth _ => some .refused
  | .dismissed, .logged _ => some .dismissed
  | .owing secs, .slept d => if d = secs then some .cleared else none
  | .owing secs, .logged _ => some (.owing secs)
  | .owing secs, .auth _ => some (.owing secs)
  | .cleared, e => if e.isCheck then none else some .cleared
  | _, _ => none

theorem next_logged (g : Gate) (p : Phase) (record : LogRecord) :
    g.next p (.logged record) = some p := by
  cases p <;> rfl

theorem next_greetingLine (g : Gate) (version : Text) :
    g.next .waiting (.sentLine (greetingLine version)) = some .waiting := by
  have hno (line : Text) (h : line.head? ≠ some 'R') : greetingLine version ≠ line := by
    intro heq
    rw [← heq] at h
    exact h rfl
  have hlines : ¬(greetingLine version = "OK\n" ∨ greetingLine version = chunkSizeLine ∨
      greetingLine version = acceptLine) :=
    not_or.mpr ⟨hno _ (by decide),not_or.mpr ⟨hno _ (by decide),hno _ (by decide)⟩⟩
  simp only [next,Event.privileged,Event.isCheck,hlines,decide_false,Bool.false_eq_true,or_self,
    if_false]

theorem next_check (g : Gate) {line token : Text}
    (h : (stripPrefix "TOKEN " line).map trim = some token) :
    g.next (.presented line)
      (.tokenChecked token g.sourceIp g.v2Only g.clock (g.verdict token)) =
        some (afterVerdict (g.verdict token)) :=
  if_pos ⟨h,rfl,rfl,rfl,rfl⟩

theorem next_slept (g : Gate) (secs : UInt64) : g.next (.owing secs) (.slept secs) = some .cleared :=
  if_pos rfl

/-- The states of a session that is in a phase, with the wall clock readings still to come. -/
structure At (g : Gate) (p : Phase) (wall : Nat → Int64) (w : World Stream) : Prop where
  peer : (LineStream.peerAddr w.stream).map SocketAddr.ip = g.sourceIp
  size : minChunkSize ≤ w.chunkSize
  wall_eq : w.wall = wall
  run : exec g.next .waiting w.trace = some p

def Safe (g : Gate) (w : World Stream) : Prop := ∃ p wall, g.At p wall w

/-! ## The primitives -/

section
variable {g : Gate} {p q : Phase} {wall : Nat → Int64}

theorem emit_at {e : Event} (h : g.next p e = some q) {E : Stop → World Stream → Prop} :
    Triple (g.At p wall) (emit e) (fun _ => g.At q wall) E := by
  intro w hw
  exact ⟨hw.peer,hw.size,hw.wall_eq,exec_snoc hw.run h⟩

private theorem keeps_onStream {I : World Stream → Prop} {α : Type} {m : EStateM IoError Stream α}
    (hm : ∀ addr, Keeps (fun s => LineStream.peerAddr s = addr) m)
    (hI : ∀ w s, LineStream.peerAddr s = LineStream.peerAddr w.stream → I w →
      I { w with stream := s }) : Keeps I (onStream m) := by
  intro w hw
  have h := hm (LineStream.peerAddr w.stream) w.stream rfl
  unfold onStream
  cases hms : m w.stream with
  | ok a s => rw [hms] at h; exact hI w s h hw
  | error e s => rw [hms] at h; exact hI w s h hw

private theorem At.setStream {w : World Stream} (hw : g.At p wall w) {s : Stream}
    (hs : LineStream.peerAddr s = LineStream.peerAddr w.stream) :
    g.At p wall { w with stream := s } :=
  ⟨(congrArg (Option.map SocketAddr.ip) hs).trans hw.peer,hw.size,hw.wall_eq,hw.run⟩

theorem onStream_at {α : Type} {m : EStateM IoError Stream α}
    (hm : ∀ addr, Keeps (fun s => LineStream.peerAddr s = addr) m) :
    Triple (g.At p wall) (onStream m) (fun _ => g.At p wall) (fun _ => g.Safe) :=
  (keeps_onStream hm fun _ _ hs hw => hw.setStream hs).mono (fun _ hw => hw) (fun _ _ hw => hw)
    fun _ _ hw => ⟨p,wall,hw⟩

theorem writeLine_at {line : Text} (h : g.next p (.sentLine line) = some q) :
    Triple (g.At p wall) (writeLine line) (fun _ => g.At q wall) (fun _ => g.Safe) :=
  (emit_at h).bind fun _ => onStream_at fun addr => Stream.keeps_peerAddr_writeAll addr _

theorem log_at (level : Level) (text : Text) (quoted : Option Text) {E : Stop → World Stream → Prop} :
    Triple (g.At p wall) (Session.log level text quoted) (fun _ => g.At p wall) E :=
  emit_at (g.next_logged p _)

theorem logAll_at (records : List LogRecord) {E : Stop → World Stream → Prop} :
    Triple (g.At p wall) (logAll records) (fun _ => g.At p wall) E := by
  induction records with
  | nil => exact .pure fun _ hw => hw
  | cons record records ih => exact (emit_at (g.next_logged p record)).bind fun _ => ih

theorem auth_at (hp : ∀ event, g.next p (.auth event) = some p) (sink : Sink) (connId : Nat) (token result : Text)
    (label reason : Option Text) {E : Stop → World Stream → Prop} :
    Triple (g.At p wall) (auth sink connId token result label reason) (fun _ => g.At p wall) E := by
  unfold auth
  split
  · exact emit_at (hp _)
  · exact .pure fun _ hw => hw

theorem throw_at {α : Type} (stop : Stop) {Q : α → World Stream → Prop} :
    Triple (g.At p wall) (throw stop : Session Stream α) Q (fun _ => g.Safe) :=
  .throw fun _ hw => ⟨p,wall,hw⟩

/-! ## The greeting -/

theorem readToken_at (fuel : Nat) :
    Triple (g.At .waiting wall) (readToken fuel) (fun line => g.At (.presented line) wall)
      (fun _ => g.Safe) := by
  induction fuel with
  | zero => exact throw_at _
  | succ fuel ih =>
    have hread : Triple (g.At .waiting wall) readLine (fun line =>
        g.At (if trim line = [] then .waiting else .presented line) wall) (fun _ => g.Safe) := by
      apply Triple.bind (onStream_at Stream.keeps_peerAddr_readLine)
      intro line
      exact Triple.bind (emit_at (q := if trim line = [] then .waiting else .presented line) rfl)
        fun _ => .pure fun _ hw => hw
    apply hread.bind
    intro line
    split
    · exact ih
    · exact .pure fun _ hw => hw

theorem tokenValue_at (connId : Nat) (line : Text) :
    Triple (g.At (.presented line) wall) (tokenValue connId line)
      (fun token w => (stripPrefix "TOKEN " line).map trim = some token ∧
        g.At (.presented line) wall w) (fun _ => g.Safe) := by
  unfold tokenValue
  cases hs : stripPrefix "TOKEN " line with
  | some rest => exact .pure fun _ hw => ⟨rfl,hw⟩
  | none =>
    dsimp only
    split
    · exact (writeLine_at (by rfl)).bind fun _ => throw_at _
    · apply Triple.bind (log_at _ _ _)
      intro _
      exact (writeLine_at (by rfl)).bind fun _ => throw_at _

/-- The gate of a session: what the server evaluates the token of the session with. -/
def session (env : Env) (connId : Nat) (config : Config) (keys : List SecretKey)
    (sourceIp : Option IpAddr) (wall : Nat → Int64) : Gate :=
  let clock := ⟨wall 0,wall 1⟩
  { sourceIp := sourceIp
    v2Only := config.v2Only
    clock := clock
    verdict := fun token =>
      (validateToken env.crypto token keys connId sourceIp config.v2Only clock).val }

variable {env : Env} {connId : Nat} {config : Config} {keys : List SecretKey}
variable {sourceIp : Option IpAddr}

theorem checkToken_at {line token : Text}
    (htoken : (stripPrefix "TOKEN " line).map trim = some token) :
    Triple ((session env connId config keys sourceIp wall).At (.presented line) wall)
      (checkToken env connId config keys token)
      (fun verdict => (session env connId config keys sourceIp wall).At (afterVerdict verdict)
        fun i => wall (i+2))
      (fun _ => (session env connId config keys sourceIp wall).Safe) := by
  set g := session env connId config keys sourceIp wall with hg
  have hpeer : Triple (g.At (.presented line) wall) peerAddr
      (fun addr w => addr.map SocketAddr.ip = sourceIp ∧ g.At (.presented line) wall w)
      (fun _ => g.Safe) := fun w hw => ⟨hw.peer,hw⟩
  have hclock : Triple (g.At (.presented line) wall) validationClock
      (fun clock w => clock = g.clock ∧ g.At (.presented line) (fun i => wall (i+2)) w)
      (fun _ => g.Safe) := by
    intro w hw
    obtain ⟨hpeer,hsize,hwall,hrun⟩ := hw
    subst hwall
    exact ⟨rfl,hpeer,hsize,rfl,hrun⟩
  apply hpeer.bind
  intro addr w hw
  obtain ⟨haddr,hw⟩ := hw
  revert w
  apply Triple.bind hclock
  intro clock w hw
  obtain ⟨rfl,hw⟩ := hw
  revert w
  apply Triple.bind (logAll_at _)
  intro _
  rw [haddr]
  exact Triple.bind (emit_at (g.next_check htoken)) fun _ => .pure fun _ hw => hw

theorem authenticate_at (hcheck : config.checkToken = true) (sink : Sink) {line token : Text}
    (htoken : (stripPrefix "TOKEN " line).map trim = some token) :
    Triple ((session env connId config keys sourceIp wall).At (.presented line) wall)
      (authenticate env connId config keys sink token)
      (fun _ => (session env connId config keys sourceIp wall).At .cleared fun i => wall (i+2))
      (fun _ => (session env connId config keys sourceIp wall).Safe) := by
  set g := session env connId config keys sourceIp wall
  have hreject (reason : Text) : Triple (g.At .refused fun i => wall (i+2))
      (do
        auth sink connId token "rejected" none (some reason)
        writeLine "ERR\n"
        throw (.io tokenRejected) : Session Stream Text)
      (fun _ => g.At .cleared fun i => wall (i+2)) (fun _ => g.Safe) := by
    apply Triple.bind (auth_at (fun _ => by rfl) _ _ _ _ _ _)
    intro _
    exact (writeLine_at (by rfl)).bind fun _ => throw_at _
  unfold authenticate
  rw [if_pos hcheck]
  apply (checkToken_at htoken).bind
  intro verdict
  cases verdict with
  | accepted secs label =>
    apply Triple.bind (log_at _ _ _)
    intro _
    dsimp only [afterVerdict]
    split
    · apply Triple.bind (auth_at (fun _ => by rfl) _ _ _ _ _ _)
      intro _
      exact Triple.bind (emit_at (g.next_slept secs)) fun _ => .pure fun _ hw => hw
    · apply Triple.bind (auth_at (fun _ => by rfl) _ _ _ _ _ _)
      intro _
      exact .pure fun _ hw => hw
  | invalidHmac => exact hreject _
  | invalidIp => exact hreject _
  | tooEarly _ => exact hreject _
  | tooLate _ => exact hreject _
  | parseError => exact hreject _
  | v2Required => exact hreject _

theorem runGreeting_at (hcheck : config.checkToken = true) (sink : Sink) (fuel : Nat) :
    Triple ((session env connId config keys sourceIp wall).At .waiting wall)
      (runGreeting env connId config keys sink fuel)
      (fun _ => (session env connId config keys sourceIp wall).At .cleared fun i => wall (i+2))
      (fun _ => (session env connId config keys sourceIp wall).Safe) := by
  apply Triple.bind (writeLine_at (next_greetingLine _ _))
  intro _
  apply Triple.bind (writeLine_at (q := .waiting) (by rfl))
  intro _
  apply (readToken_at fuel).bind
  intro line
  apply (tokenValue_at connId line).bind
  intro token w hw
  obtain ⟨htoken,hw⟩ := hw
  revert w
  apply (authenticate_at hcheck sink htoken).bind
  intro label
  apply Triple.bind (writeLine_at (q := .cleared) (by rfl))
  intro _
  exact (writeLine_at (q := .cleared) (by rfl)).bind fun _ => .pure fun _ hw => hw

end

/-! ## The commands -/

def Admitted (g : Gate) (w : World Stream) : Prop := ∃ wall, g.At .cleared wall w

section
variable {g : Gate}

private theorem keeps_emit {e : Event} (h : e.isCheck = false) : Keeps g.Admitted (emit e) := by
  rintro w ⟨wall,hw⟩
  have hnext : g.next .cleared e = some .cleared := by
    simp only [next,h,Bool.false_eq_true,if_false]
  exact ⟨wall,hw.peer,hw.size,hw.wall_eq,exec_snoc hw.run hnext⟩

private theorem Admitted.setStream (w : World Stream) (s : Stream)
    (hs : LineStream.peerAddr s = LineStream.peerAddr w.stream) :
    g.Admitted w → g.Admitted { w with stream := s } := by
  rintro ⟨wall,hw⟩
  exact ⟨wall,hw.setStream hs⟩

private theorem Admitted.size {w : World Stream} : g.Admitted w → minChunkSize ≤ w.chunkSize
  | ⟨_,hw⟩ => hw.size

private theorem Admitted.congr {w w' : World Stream} (hw : g.Admitted w)
    (hstream : w'.stream = w.stream) (htrace : w'.trace = w.trace)
    (hsize : minChunkSize ≤ w'.chunkSize) : g.Admitted w' := by
  obtain ⟨wall,hw⟩ := hw
  exact ⟨w'.wall,by rw [hstream]; exact hw.peer,hsize,rfl,by rw [htrace]; exact hw.run⟩

theorem admitted_relation (g : Gate) :
    CommandRelation (fun w w' => w = w' ∧ g.Admitted w) (fun _ => False) Eq where
  sameLine := by
    rintro a _ rfl
    exact .refl a
  readLine :=
    ((keeps_onStream Stream.keeps_peerAddr_readLine Admitted.setStream).bind fun _ =>
      (keeps_emit rfl).bind fun _ => .pure _).simulates
  readExact n _ :=
    ((keeps_onStream (fun addr => Stream.keeps_peerAddr_readExact addr n) Admitted.setStream).bind fun _ =>
      (keeps_emit rfl).bind fun _ => .pure _).simulates
  writeLine _ :=
    ((keeps_emit rfl).bind fun _ =>
      keeps_onStream (fun addr => Stream.keeps_peerAddr_writeAll addr _) Admitted.setStream).simulates
  writeChunk _ _ :=
    ((keeps_emit rfl).bind fun _ =>
      keeps_onStream (fun addr => Stream.keeps_peerAddr_writeAll addr _) Admitted.setStream).simulates
  instant := Keeps.simulates fun _ h => h.congr rfl rfl h.size
  chunkSize := by
    rintro w _ ⟨rfl,hw⟩
    exact ⟨_,w,rfl,⟨rfl,hw.size⟩,rfl,hw⟩
  setChunkSize _ hn := Keeps.simulates fun _ h => h.congr rfl rfl hn
  stats := Keeps.simulates fun _ h => h
  updateStats _ := Keeps.simulates fun _ h => h.congr rfl rfl h.size
  log _ := (keeps_emit rfl).simulates
  started := (keeps_emit rfl).simulates
  command _ _ _ := (keeps_emit rfl).simulates

end

/-! ## Whole sessions -/

theorem attempt_triple {α : Type} {P : World Stream → Prop} {m : Session Stream α}
    {Q : α → World Stream → Prop} {E : Stop → World Stream → Prop} (hm : Triple P m Q E) :
    Triple P (attempt m) (fun r w => match r with
      | .ok a => Q a w
      | .error e => E (.io e) w) E := by
  intro w hw
  have h := hm w hw
  unfold attempt
  cases hmw : m w with
  | ok a w' => rw [hmw] at h; exact h
  | error stop w' =>
    rw [hmw] at h
    cases stop with
    | io e => exact h
    | panic => exact h
    | outOfFuel => exact h

private theorem log_safe {g : Gate} (level : Level) (text : Text) :
    Keeps g.Safe (Session.log level text) := by
  rintro w ⟨p,wall,hw⟩
  exact ⟨p,wall,hw.peer,hw.size,hw.wall_eq,exec_snoc hw.run (g.next_logged p _)⟩

/-- Every session with token check keeps to the automaton. -/
theorem handleStream_safe (env : Env) (connId : Nat) {config : Config} (keys : List SecretKey)
    (sink : Sink) (fuel : Nat) (stream : Stream) (instants : Nat → Nat) (wall : Nat → Int64)
    (hcheck : config.checkToken = true) :
    (session env connId config keys ((LineStream.peerAddr stream).map SocketAddr.ip) wall).Safe
      (final (handleStream env connId config keys sink fuel (World.start stream instants wall))) := by
  set g := session env connId config keys ((LineStream.peerAddr stream).map SocketAddr.ip) wall
  have hstart : g.At .waiting wall (World.start stream instants wall) :=
    ⟨rfl,le_refl _,rfl,rfl⟩
  have hcommands (uuid : Text) :
      Triple g.Admitted (runCommands env connId uuid fuel) (fun _ => g.Safe) (fun _ => g.Safe) := by
    have hkeeps := (g.admitted_relation.runCommands env connId uuid fuel).keeps
    exact hkeeps.mono (fun _ hw => hw) (fun _ _ ⟨v,hw⟩ => ⟨_,v,hw⟩) fun _ _ ⟨v,hw⟩ => ⟨_,v,hw⟩
  have hall : Triple (g.At .waiting wall) (handleStream env connId config keys sink fuel)
      (fun _ => g.Safe) (fun _ => g.Safe) := by
    apply (attempt_triple (runGreeting_at hcheck sink fuel)).bind
    intro greeted
    cases greeted with
    | error e => exact Triple.bind (log_safe _ _) fun _ => .pure fun _ hw => hw
    | ok greeting =>
      apply Triple.bind (R := fun _ => g.Safe)
      · refine Triple.mono (attempt_triple (hcommands greeting.uuid)) (fun _ hw => ⟨_,hw⟩) ?_
          fun _ _ hw => hw
        intro ended w hw
        cases ended with
        | ok _ => exact hw
        | error _ => exact hw
      · intro ended
        cases ended with
        | ok _ => exact .pure fun _ hw => hw
        | error e =>
          dsimp only
          split
          · exact Triple.bind (log_safe _ _) fun _ => .pure fun _ hw => hw
          · exact .pure fun _ hw => hw
  have h := hall _ hstart
  cases hrun : handleStream env connId config keys sink fuel (World.start stream instants wall) with
  | ok a w => rw [hrun] at h; exact h
  | error e w => rw [hrun] at h; exact h

/-! ## Traces -/

/-- The first line of `tr` that is not blank is `line`, and the gate is closed throughout. -/
def Presented (line : Text) (tr : List Event) : Prop :=
  ∃ a b, tr = a ++ .received line::b ∧ trim line ≠ [] ∧ (∀ l, .received l ∈ a → trim l = []) ∧
    ∀ e ∈ tr, e.Outside

/-- `tr` ends in the evaluation of its token, with a verdict of acceptance, and `c`. -/
def Evaluated (g : Gate) (secs : UInt64) (c tr : List Event) : Prop :=
  ∃ line token label pre,
    tr = pre ++ .tokenChecked token g.sourceIp g.v2Only g.clock (.accepted secs label)::c ∧
    Presented line pre ∧ (stripPrefix "TOKEN " line).map trim = some token ∧
    g.verdict token = .accepted secs label ∧ ∀ e ∈ c, e.isCheck = false

/-- What a trace that leads to a phase looks like. -/
def History (g : Gate) : Phase → List Event → Prop
  | .waiting, tr => (∀ l, .received l ∈ tr → trim l = []) ∧ ∀ e ∈ tr, e.Outside
  | .presented line, tr => Presented line tr
  | .owing secs, tr => ∃ c, g.Evaluated secs c tr
  | .cleared, tr => ∃ secs c, g.Evaluated secs c tr ∧ (0 < secs → .slept secs ∈ c)
  | .refused, _ => True
  | .dismissed, _ => True

section
variable {g : Gate} {q : Phase} {e : Event} {tr : List Event}

theorem Evaluated.snoc {secs : UInt64} {c : List Event} (h : g.Evaluated secs c tr)
    (he : e.isCheck = false) : g.Evaluated secs (c ++ [e]) (tr ++ [e]) := by
  obtain ⟨line,token,label,pre,rfl,hpre,htoken,hverdict,hc⟩ := h
  refine ⟨line,token,label,pre,by simp,hpre,htoken,hverdict,?_⟩
  intro e' he'
  rcases List.mem_append.mp he' with he' | he'
  · exact hc e' he'
  · rw [List.mem_singleton.mp he']
    exact he

private theorem outside_snoc (h : ∀ e ∈ tr, e.Outside) (he : e.Outside) :
    ∀ e' ∈ tr ++ [e], e'.Outside := by
  intro e' he'
  rcases List.mem_append.mp he' with he' | he'
  · exact h e' he'
  · rw [List.mem_singleton.mp he']
    exact he

private theorem presented_snoc {line : Text} (h : Presented line tr) (he : e.Outside) :
    Presented line (tr ++ [e]) := by
  obtain ⟨a,b,rfl,hline,hblank,hout⟩ := h
  exact ⟨a,b ++ [e],by simp,hline,hblank,outside_snoc hout he⟩

theorem History.waiting_step (h : g.History .waiting tr) (hn : g.next .waiting e = some q) :
    g.History q (tr ++ [e]) := by
  obtain ⟨hblank,hout⟩ := h
  cases he : e with
  | received line =>
    subst he
    cases hn
    split
    · next hline =>
      refine ⟨?_,outside_snoc hout ⟨rfl,rfl⟩⟩
      intro l hl
      rcases List.mem_append.mp hl with hl | hl
      · exact hblank l hl
      · cases List.mem_singleton.mp hl
        exact hline
    · next hline => exact ⟨tr,[],rfl,hline,hblank,outside_snoc hout ⟨rfl,rfl⟩⟩
  | _ =>
    have hne : ∀ l, e ≠ .received l := by simp [he]
    rw [← he]
    have hguard : g.next .waiting e = if e.privileged ∨ e.isCheck then none else some .waiting := by
      rw [he]
      rfl
    rw [hguard] at hn
    split at hn
    · cases hn
    · next hout' =>
      cases hn
      simp only [not_or,Bool.not_eq_true] at hout'
      refine ⟨?_,outside_snoc hout hout'⟩
      intro l hl
      rcases List.mem_append.mp hl with hl | hl
      · exact hblank l hl
      · exact absurd (List.mem_singleton.mp hl).symm (hne l)

theorem History.presented_step {line : Text} (h : g.History (.presented line) tr)
    (hn : g.next (.presented line) e = some q) : g.History q (tr ++ [e]) := by
  cases he : e with
  | received line' =>
    rw [he] at hn
    cases hn
  | tokenChecked token ip v2Only clock result =>
    rw [he] at hn
    simp only [next] at hn
    split at hn
    · next hall =>
      obtain ⟨htoken,rfl,rfl,rfl,rfl⟩ := hall
      cases hn
      cases hr : g.verdict token with
      | accepted secs label =>
        have heval : g.Evaluated secs [] (tr ++ [.tokenChecked token g.sourceIp g.v2Only g.clock
            (.accepted secs label)]) := ⟨line,token,label,tr,rfl,h,htoken,hr,by simp⟩
        dsimp only [afterVerdict]
        split
        · exact ⟨[],heval⟩
        · next hzero => exact ⟨secs,[],heval,fun hpos => absurd hpos hzero⟩
      | _ => trivial
    · cases hn
  | _ =>
    have hcheck : e.isCheck = false := by rw [he]; rfl
    have hguard : g.next (.presented line) e =
        if e.privileged then none else some (.presented line) := by
      rw [he]
      rfl
    rw [← he]
    rw [hguard] at hn
    split at hn
    · cases hn
    · next hpriv =>
      cases hn
      exact presented_snoc h ⟨by simpa using hpriv,hcheck⟩

theorem History.owing_step {secs : UInt64} (h : g.History (.owing secs) tr)
    (hn : g.next (.owing secs) e = some q) : g.History q (tr ++ [e]) := by
  obtain ⟨c,h⟩ := h
  cases e with
  | slept d =>
    simp only [next] at hn
    split at hn
    · next hd =>
      cases hn
      subst hd
      exact ⟨d,c ++ [.slept d],h.snoc rfl,fun _ => by simp⟩
    · cases hn
  | logged record =>
    cases hn
    exact ⟨_,h.snoc rfl⟩
  | auth event =>
    cases hn
    exact ⟨_,h.snoc rfl⟩
  | _ => cases hn

theorem History.cleared_step (h : g.History .cleared tr) (hn : g.next .cleared e = some q) :
    g.History q (tr ++ [e]) := by
  obtain ⟨secs,c,h,hslept⟩ := h
  simp only [next] at hn
  split at hn
  · cases hn
  · next hcheck =>
    cases hn
    exact ⟨secs,c ++ [e],h.snoc (by simpa using hcheck),fun hpos =>
      List.mem_append_left _ (hslept hpos)⟩

theorem History.step {p : Phase} (h : g.History p tr) (hn : g.next p e = some q) :
    g.History q (tr ++ [e]) := by
  cases p with
  | waiting => exact h.waiting_step hn
  | presented line => exact h.presented_step hn
  | owing secs => exact h.owing_step hn
  | cleared => exact h.cleared_step hn
  | refused =>
    have hq : q = .dismissed ∨ q = .refused := by
      cases e <;> simp only [next,Option.ite_none_right_eq_some,Option.some.injEq,reduceCtorEq] at hn
        <;> simp [← hn]
    rcases hq with rfl | rfl <;> trivial
  | dismissed =>
    have hq : q = .dismissed := by
      cases e <;> simp only [next,Option.some.injEq,reduceCtorEq] at hn
      exact hn.symm
    subst hq
    trivial

/-- Every trace the automaton allows has the history of its phase. -/
theorem history {p : Phase} (h : exec g.next .waiting tr = some p) : g.History p tr := by
  have hrun := run_of_exec h
  clear h
  induction hrun with
  | nil => exact ⟨nofun,nofun⟩
  | snoc _ _ hs ih => exact ih.step hs

/-! ## Runs from a phase on -/

theorem next_privileged {p : Phase} (he : e.privileged = true) (hn : g.next p e = some q) :
    p = .cleared := by
  cases p with
  | cleared => rfl
  | refused =>
    cases e with
    | sentLine line =>
      simp only [next,Option.ite_none_right_eq_some] at hn
      rw [hn.1] at he
      exact absurd he (by decide)
    | logged record => cases he
    | auth event => cases he
    | _ => cases hn
  | dismissed =>
    cases e with
    | logged record => cases he
    | _ => cases hn
  | owing secs =>
    cases e with
    | slept d => cases he
    | logged record => cases he
    | auth event => cases he
    | _ => cases hn
  | waiting =>
    cases e with
    | received line => cases he
    | _ => simp only [next,he,true_or,if_true,reduceCtorEq] at hn
  | presented line =>
    cases e with
    | received line => cases he
    | tokenChecked token ip v2Only clock result => cases he
    | _ => simp only [next,he,if_true,reduceCtorEq] at hn

theorem next_tokenChecked {p : Phase} {token : Text} {ip : Option IpAddr} {v2Only : Bool}
    {clock : ClockReadings} {result : TokenResult}
    (hn : g.next p (.tokenChecked token ip v2Only clock result) = some q) :
    ∃ line, p = .presented line ∧ result = g.verdict token ∧ q = afterVerdict result := by
  cases p with
  | presented line =>
    simp only [next] at hn
    split at hn
    · next hall =>
      cases hn
      exact ⟨line,rfl,hall.2.2.2.2,rfl⟩
    · cases hn
  | _ => cases hn

theorem cleared_run {p : Phase} (h : exec g.next .cleared tr = some p) :
    ∀ e ∈ tr, e.isCheck = false := by
  induction tr with
  | nil => nofun
  | cons e tr ih =>
    obtain ⟨q,hq,h⟩ := Option.bind_eq_some_iff.mp h
    simp only [next] at hq
    split at hq
    · cases hq
    · next hcheck =>
      cases hq
      intro e' he'
      rcases List.mem_cons.mp he' with rfl | he'
      · simpa using hcheck
      · exact ih h e' he'

theorem owing_run {secs : UInt64} {p : Phase} (h : exec g.next (.owing secs) tr = some p) :
    ∀ e ∈ tr, e.isCheck = false := by
  induction tr with
  | nil => nofun
  | cons e tr ih =>
    obtain ⟨q,hq,h⟩ := Option.bind_eq_some_iff.mp h
    intro e' he'
    rcases List.mem_cons.mp he' with rfl | hmem
    · cases e' <;> first | rfl | cases hq
    · cases e with
      | slept d =>
        simp only [next] at hq
        split at hq
        · cases hq
          exact cleared_run h e' hmem
        · cases hq
      | logged record => cases hq; exact ih h e' hmem
      | auth event => cases hq; exact ih h e' hmem
      | _ => cases hq

private def Closing (e : Event) : Prop :=
  e.isCheck = false ∧ e.privileged = false ∧ ∀ line, e ≠ .received line

private theorem dismissed_run {p : Phase} (h : exec g.next .dismissed tr = some p) :
    written tr = [] ∧ ∀ e ∈ tr, Closing e := by
  induction tr with
  | nil => exact ⟨rfl,nofun⟩
  | cons e tr ih =>
    obtain ⟨q,hq,h⟩ := Option.bind_eq_some_iff.mp h
    cases e with
    | logged record =>
      cases hq
      obtain ⟨hw,hc⟩ := ih h
      exact ⟨hw,List.forall_mem_cons.mpr ⟨⟨rfl,rfl,nofun⟩,hc⟩⟩
    | _ => cases hq

private theorem refused_run {p : Phase} (h : exec g.next .refused tr = some p) :
    (written tr = [] ∨ written tr = [.sentLine "ERR\n"]) ∧ ∀ e ∈ tr, Closing e := by
  induction tr with
  | nil => exact ⟨Or.inl rfl,nofun⟩
  | cons e tr ih =>
    obtain ⟨q,hq,h⟩ := Option.bind_eq_some_iff.mp h
    cases e with
    | logged record =>
      cases hq
      obtain ⟨hw,hc⟩ := ih h
      exact ⟨hw,List.forall_mem_cons.mpr ⟨⟨rfl,rfl,nofun⟩,hc⟩⟩
    | auth event =>
      cases hq
      obtain ⟨hw,hc⟩ := ih h
      exact ⟨hw,List.forall_mem_cons.mpr ⟨⟨rfl,rfl,nofun⟩,hc⟩⟩
    | sentLine line =>
      simp only [next] at hq
      split at hq
      · next hline =>
        cases hq
        subst hline
        obtain ⟨hw,hc⟩ := dismissed_run h
        refine ⟨Or.inr ?_,List.forall_mem_cons.mpr ⟨⟨rfl,by decide,nofun⟩,hc⟩⟩
        rw [written,List.filter_cons_of_pos rfl]
        exact congrArg _ hw
      · cases hq
    | _ => cases hq

end

end Gate

/-! ## The gate -/

/-- Times at which the events of a trace begin, in nanoseconds of the wall clock. The clock is not
stepped back, and a sleep lasts at least as long as requested. -/
structure Timing (tr : List Event) (time : Nat → Int) : Prop where
  mono : ∀ i j, i ≤ j → time i ≤ time j
  checked : ∀ i token ip v2Only clock result,
    tr[i]? = some (.tokenChecked token ip v2Only clock result) →
      clock.window.toInt * 10^9 ≤ time i
  slept : ∀ i secs, tr[i]? = some (.slept secs) → time i + secs.toNat * 10^9 ≤ time (i+1)

private theorem Timing.start_le {tr c post : List Event} {time : Nat → Int} (h : Timing tr time)
    {pre : List Event} {token : Text} {ip : Option IpAddr} {v2Only : Bool} {clock : ClockReadings}
    {result : TokenResult} {secs : UInt64} {s : Int64}
    (htr : tr = pre ++ .tokenChecked token ip v2Only clock result::c ++ post)
    (hslept : 0 < secs → .slept secs ∈ c)
    (hs : secs.toNat = (s.toInt - clock.window.toInt).toNat) :
    s.toInt * 10^9 ≤ time (pre ++ .tokenChecked token ip v2Only clock result::c).length := by
  have hcheck : clock.window.toInt * 10^9 ≤ time pre.length := by
    apply h.checked pre.length token ip v2Only clock result
    rw [htr,List.append_assoc]
    simp
  by_cases hpos : 0 < secs
  · obtain ⟨c1,c2,hc⟩ := List.append_of_mem (hslept hpos)
    have hsplit : tr = (pre ++ .tokenChecked token ip v2Only clock result::c1) ++
        .slept secs::(c2 ++ post) := by
      rw [htr,hc]
      simp
    have hsleep := h.slept (pre ++ .tokenChecked token ip v2Only clock result::c1).length secs
      (by rw [hsplit]; simp)
    have h1 := h.mono pre.length (pre ++ .tokenChecked token ip v2Only clock result::c1).length
      (by simp)
    have h2 := h.mono ((pre ++ .tokenChecked token ip v2Only clock result::c1).length + 1)
      (pre ++ .tokenChecked token ip v2Only clock result::c).length (by
        rw [hc]
        simp only [List.length_append,List.length_cons]
        omega)
    omega
  · have hzero : secs.toNat = 0 := by
      rw [UInt64.lt_iff_toNat_lt] at hpos
      simpa using hpos
    have h1 := h.mono pre.length (pre ++ .tokenChecked token ip v2Only clock result::c).length
      (by simp)
    omega

/-- In a session with token check, whatever the client sends, everything privileged comes after
exactly one token evaluation: that of the trimmed text after `TOKEN ` in the first line that is not
blank, at the peer address and in the mode of the server, with the verdict of acceptance and the
sleep it asks for. So nothing privileged happens before the start time of the token. After any
other verdict the session writes at most `ERR`, and neither reads a line, evaluates a token nor
executes a command. -/
theorem handleStream_gate (env : Env) (connId : Nat) (config : Config) (keys : List SecretKey)
    (sink : Sink) (fuel : Nat) (stream : Stream) (instants : Nat → Nat) (wall : Nat → Int64)
    (hcheck : config.checkToken = true) :
    let tr := (final (handleStream env connId config keys sink fuel
      (World.start stream instants wall))).trace
    let sourceIp := (LineStream.peerAddr stream).map SocketAddr.ip
    let clock : ClockReadings := ⟨wall 0,wall 1⟩
    let verdict := fun token =>
      (validateToken env.crypto token keys connId sourceIp config.v2Only clock).val
    (∀ pre e post, tr = pre ++ e::post → e.privileged = true → ∃ a line rest b secs label c,
      pre = a ++ .received line::b ++ .tokenChecked (trim rest) sourceIp config.v2Only clock
        (.accepted secs label)::c ∧
      (∀ l, .received l ∈ a → trim l = []) ∧ trim line ≠ [] ∧ line = "TOKEN ".toList ++ rest ∧
      verdict (trim rest) = .accepted secs label ∧ (0 < secs → .slept secs ∈ c) ∧
      (∀ e' ∈ a ++ .received line::b ++ c ++ e::post, e'.isCheck = false) ∧
      (clock.Plausible → ∀ time, Timing tr time → ∃ s,
        startTime env.crypto (trim rest) clock = some s ∧ s.toInt * 10^9 ≤ time pre.length)) ∧
    ∀ pre token ip v2Only readings result post,
      tr = pre ++ .tokenChecked token ip v2Only readings result::post →
      result = verdict token ∧ (∀ e ∈ pre ++ post, e.isCheck = false) ∧
      ((∀ secs label, result ≠ .accepted secs label) →
        (written post = [] ∨ written post = [.sentLine "ERR\n"]) ∧
        ∀ e ∈ post, e.privileged = false ∧ ∀ line, e ≠ .received line) := by
  intro tr sourceIp clock verdict
  obtain ⟨p,v,-,-,-,hrun⟩ :=
    Gate.handleStream_safe env connId keys sink fuel stream instants wall hcheck
  constructor
  · intro pre e post htr he
    have hsplit : exec _ _ tr = some p := hrun
    rw [htr] at hsplit
    obtain ⟨q,q',hpre,hq,hpost⟩ := exec_split hsplit
    cases Gate.next_privileged he hq
    have hpast : ∀ e' ∈ e::post, e'.isCheck = false :=
      Gate.cleared_run (Option.bind_eq_some_iff.mpr ⟨q',hq,hpost⟩)
    obtain ⟨secs,c,heval,hslept⟩ := Gate.history hpre
    obtain ⟨line,token,label,pre',hpre',⟨a,b,hab,hline,hblank,hout⟩,htoken,hverdict,hc⟩ := heval
    obtain ⟨rest,hrest,rfl⟩ := Option.map_eq_some_iff.mp htoken
    have hpre' : pre = pre' ++ .tokenChecked (trim rest) sourceIp config.v2Only clock
        (.accepted secs label)::c := hpre'
    refine ⟨a,line,rest,b,secs,label,c,by rw [hpre',hab],hblank,hline,
      stripPrefix_eq_some.mp hrest,hverdict,hslept,?_,?_⟩
    · intro e' he'
      simp only [List.mem_append,or_assoc] at he'
      rcases he' with he' | he' | he' | he'
      · exact (hout e' (by rw [hab]; exact List.mem_append_left _ he')).2
      · exact (hout e' (by rw [hab]; exact List.mem_append_right _ he')).2
      · exact hc e' he'
      · exact hpast e' he'
    · intro hclock time htime
      obtain ⟨s,hs,hsleep⟩ := validateToken_sleep hclock hverdict
      refine ⟨s,hs,?_⟩
      have htr' : tr = pre' ++ .tokenChecked (trim rest) sourceIp config.v2Only clock
          (.accepted secs label)::c ++ e::post := by rw [htr,hpre']
      have hle := htime.start_le htr' hslept hsleep
      rw [hpre']
      exact hle
  · intro pre token ip v2Only readings result post htr
    have hsplit : exec _ _ tr = some p := hrun
    rw [htr] at hsplit
    obtain ⟨q,q',hpre,hq,hpost⟩ := exec_split hsplit
    obtain ⟨line,rfl,hresult,rfl⟩ := Gate.next_tokenChecked hq
    obtain ⟨-,-,-,-,-,hout⟩ := Gate.history hpre
    have hafter : ∀ e ∈ post, e.isCheck = false := by
      cases hr : result with
      | accepted secs label =>
        rw [hr] at hpost
        dsimp only [Gate.afterVerdict] at hpost
        split at hpost
        · exact Gate.owing_run hpost
        · exact Gate.cleared_run hpost
      | _ =>
        rw [hr] at hpost
        exact fun e he => ((Gate.refused_run hpost).2 e he).1
    refine ⟨hresult,?_,?_⟩
    · intro e he
      rcases List.mem_append.mp he with he | he
      · exact (hout e he).2
      · exact hafter e he
    · intro hno
      have hrefused : Gate.afterVerdict result = .refused := by
        cases hr : result with
        | accepted secs label => exact absurd hr (hno secs label)
        | _ => rfl
      rw [hrefused] at hpost
      obtain ⟨hw,hclosing⟩ := Gate.refused_run hpost
      exact ⟨hw,fun e he => (hclosing e he).2⟩

def goldenEnv : Env where
  crypto := goldenCrypto
  version := "0.0.0-dev"
  randomChunk := ⟨List.replicate maxChunkSize 0,List.length_replicate⟩

def goldenConn : RawConn where
  input := utf8 ("\r\nTOKEN " ++ goldenToken ++ "\nQUIT\n")
  inputEnd := none
  output := []
  faults := []
  peer := some (.new goldenIp 40000)

theorem handleStream_gate_golden :
    let tr := (final (handleStream goldenEnv 1 .default [goldenKey] ⟨true,"62.1.2.*"⟩ 3
      (World.start (Stream.raw goldenConn) id fun _ => 1699999990))).trace
    ∃ pre post secs label, tr = pre ++ .sentLine "OK\n"::post ∧
      .tokenChecked goldenToken (some goldenIp) false (.constant 1699999990)
        (.accepted secs label) ∈ pre ∧ (0 < secs → .slept secs ∈ pre) := by
  intro tr
  have hmem : .sentLine "OK\n" ∈ tr := by decide +kernel
  obtain ⟨pre,post,htr⟩ := List.append_of_mem hmem
  obtain ⟨a,line,rest,b,secs,label,c,hpre,-,-,-,-,hslept,-⟩ :=
    (handleStream_gate goldenEnv 1 .default [goldenKey] ⟨true,"62.1.2.*"⟩ 3 (.raw goldenConn) id
      (fun _ => 1699999990) rfl).1 pre _ post htr (by decide)
  have hcheck : .tokenChecked (trim rest) (some goldenIp) false (.constant 1699999990)
      (.accepted secs label) ∈ pre := by
    rw [hpre]
    exact List.mem_append_right _ List.mem_cons_self
  have hgolden : tr.all (fun e => match e with
      | .tokenChecked token _ _ _ _ => token = goldenToken
      | _ => true) = true := by decide +kernel
  have hcheck' : .tokenChecked (trim rest) (some goldenIp) false (.constant 1699999990)
      (.accepted secs label) ∈ tr := by
    rw [htr]
    exact List.mem_append_left _ hcheck
  have htoken : trim rest = goldenToken :=
    of_decide_eq_true (List.all_eq_true.mp hgolden _ hcheck')
  refine ⟨pre,post,secs,label,htr,htoken ▸ hcheck,?_⟩
  intro hpos
  rw [hpre]
  exact List.mem_append_right _ (List.mem_cons_of_mem _ (hslept hpos))

end Rmbtd
