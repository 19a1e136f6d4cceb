import Rmbtd.Protocol.Commands
import Rmbtd.Protocol.Greeting

/-!
# Simulation of the protocol handlers

A relation between the states of two sessions that every basic operation preserves is preserved by
the greeting and by the command loop. The lines the two sessions read may differ in carriage
returns at their end, which the handlers trim.
-/

namespace Rmbtd

open Effect Session

/-! ## Relations the basic operations preserve -/

variable {σ τ : Type} [LineStream σ] [LineStream τ]

/-- What the command loop needs of a relation between the states of two sessions. The chunk size
of related states is at least the minimum. -/
structure CommandRelation (R : World σ → World τ → Prop) (stuck : Stop → Prop)
    (V : Text → Text → Prop) : Prop where
  sameLine : ∀ a b, V a b → SameLine a b
  readLine : Simulates R stuck V readLine readLine
  readExact : ∀ n, minChunkSize ≤ n → Simulates R stuck Eq (readExact n) (readExact n)
  writeLine : ∀ line, Simulates R stuck Eq (writeLine line) (writeLine line)
  writeChunk : ∀ bytes, minChunkSize ≤ bytes.length →
    Simulates R stuck Eq (writeChunk bytes) (writeChunk bytes)
  instant : Simulates R stuck Eq instant instant
  chunkSize : Simulates R stuck (fun a b => a = b ∧ minChunkSize ≤ a) chunkSize chunkSize
  setChunkSize : ∀ n, minChunkSize ≤ n → Simulates R stuck Eq (setChunkSize n) (setChunkSize n)
  stats : Simulates R stuck Eq stats stats
  updateStats : ∀ f, Simulates R stuck Eq (updateStats f) (updateStats f)
  log : ∀ record, Simulates R stuck Eq (emit (.logged record)) (emit (.logged record))
  started : Simulates R stuck Eq (emit .commandsStarted) (emit .commandsStarted)
  command : ∀ line n s,
    Simulates R stuck Eq (emit (.command line n s)) (emit (.command line n s))

structure GreetingRelation (R : World σ → World τ → Prop) (stuck : Stop → Prop)
    (V : Text → Text → Prop) : Prop extends CommandRelation R stuck V where
  peerAddr : Simulates R stuck Eq peerAddr peerAddr
  validationClock : Simulates R stuck Eq validationClock validationClock
  sleep : ∀ secs, Simulates R stuck Eq (sleep secs) (sleep secs)
  auth : ∀ event, Simulates R stuck Eq (emit (.auth event)) (emit (.auth event))
  logLine : ∀ level text a b, V a b →
    Simulates R stuck Eq (Session.log level text (some a)) (Session.log level text (some b))
  checked : ∀ token ip v2Only clock result,
    Simulates R stuck Eq (emit (.tokenChecked token ip v2Only clock result))
      (emit (.tokenChecked token ip v2Only clock result))

/-- What the greeting needs besides, but for the check of the token. -/
structure GreetingRules (R : World σ → World τ → Prop) (stuck : Stop → Prop)
    (V : Text → Text → Prop) : Prop extends CommandRelation R stuck V where
  sleep : ∀ secs, Simulates R stuck Eq (sleep secs) (sleep secs)
  auth : ∀ event, Simulates R stuck Eq (emit (.auth event)) (emit (.auth event))
  logLine : ∀ level text a b, V a b →
    Simulates R stuck Eq (Session.log level text (some a)) (Session.log level text (some b))

namespace CommandRelation

variable {R : World σ → World τ → Prop} {stuck : Stop → Prop} {V : Text → Text → Prop}

omit [LineStream σ] [LineStream τ] in
private theorem bindEq {α γ : Type} {m : Session σ α} {n : Session τ α} {f : α → Session σ γ}
    {g : α → Session τ γ} (hm : Simulates R stuck Eq m n)
    (hf : ∀ a, Simulates R stuck Eq (f a) (g a)) : Simulates R stuck Eq (m >>= f) (n >>= g) := by
  apply hm.bind
  rintro a _ rfl
  exact hf a

variable (h : CommandRelation R stuck V)
include h

theorem elapsed (start : Nat) : Simulates R stuck Eq (elapsed start) (elapsed start) :=
  bindEq h.instant fun _ => .pure rfl

theorem logText (level : Level) (text : Text) (quoted : Option Text) :
    Simulates R stuck Eq (Session.log level text quoted) (Session.log level text quoted) :=
  h.log _

theorem withChunkSize {argChunk : Text} {m : Session σ Unit} {n : Session τ Unit}
    (hm : Simulates R stuck Eq m n) :
    Simulates R stuck Eq (withChunkSize argChunk m) (withChunkSize argChunk n) := by
  unfold Rmbtd.withChunkSize
  split
  · exact hm
  · cases hp : parseChunkSize argChunk maxChunkSize with
    | none => exact h.writeLine _
    | some size =>
      have hsize : minChunkSize ≤ size := by
        have hf := (Option.filter_eq_some_iff.mp hp).2
        simp only [decide_eq_true_eq] at hf
        exact hf.1
      exact bindEq (h.setChunkSize size hsize) fun _ => hm

theorem acknowledge (start : Nat) :
    Simulates R stuck Eq (acknowledge start) (acknowledge start) := by
  apply h.readLine.bind
  intro a b hab
  rw [(h.sameLine a b hab).trim_eq]
  apply Simulates.ite
  · exact h.writeLine _
  · exact bindEq (h.elapsed start) fun total => h.writeLine _

theorem downloadBuf (randomChunk : RandomChunk) :
    Simulates R stuck (fun a b => a = b ∧ minChunkSize ≤ a.length) (downloadBuf randomChunk)
      (downloadBuf randomChunk) := by
  apply h.chunkSize.bind
  rintro n _ ⟨rfl,hn⟩
  split
  · next hle => exact .pure ⟨rfl,by rw [List.length_take,Nat.min_eq_left hle]; exact hn⟩
  · exact .throw _

omit [LineStream σ] [LineStream τ] h in
theorem setLast (buf : Bytes) (terminal : Bool) :
    Simulates R stuck (fun a b => a = b ∧ a.length = buf.length) (setLast buf terminal)
      (setLast buf terminal) := by
  unfold Rmbtd.setLast
  split
  · exact .throw _
  · next hne =>
    have hpos : 0 < buf.length := List.length_pos_iff.mpr hne
    refine .pure ⟨rfl,?_⟩
    rw [List.length_append,List.length_dropLast,List.length_singleton]
    omega

theorem sendFor {buf : Bytes} (hbuf : minChunkSize ≤ buf.length) (start maxNs fuel : Nat)
    (sent : UInt64) :
    Simulates R stuck Eq (sendFor buf start maxNs fuel sent) (sendFor buf start maxNs fuel sent) := by
  induction fuel generalizing sent with
  | zero => exact .throw _
  | succ fuel ih =>
    apply bindEq (h.elapsed start)
    intro ns
    apply (setLast buf (maxNs ≤ ns)).bind
    rintro chunk _ ⟨rfl,hlen⟩
    apply bindEq (h.writeChunk chunk (hlen ▸ hbuf))
    intro _
    apply h.chunkSize.bind
    rintro n _ ⟨rfl,-⟩
    apply Simulates.ite
    · exact .pure rfl
    · exact ih _

theorem sendChunks {buf : Bytes} (hbuf : minChunkSize ≤ buf.length) (count : Nat) :
    Simulates R stuck Eq (sendChunks buf count) (sendChunks buf count) := by
  induction count with
  | zero => exact .pure rfl
  | succ left ih =>
    apply (setLast buf (left = 0)).bind
    rintro chunk _ ⟨rfl,hlen⟩
    exact bindEq (h.writeChunk chunk (hlen ▸ hbuf)) fun _ => ih

theorem handleGettime (env : Env) (argSecs argChunk : Text) (fuel : Nat) :
    Simulates R stuck Eq (handleGettime env argSecs argChunk fuel)
      (handleGettime env argSecs argChunk fuel) := by
  apply h.withChunkSize
  cases parseBounded argSecs maxSeconds with
  | none => exact h.writeLine _
  | some seconds =>
    apply bindEq h.instant
    intro start
    apply (h.downloadBuf env.randomChunk).bind
    rintro buf _ ⟨rfl,hbuf⟩
    apply bindEq (h.sendFor hbuf start _ fuel 0)
    intro sent
    apply bindEq (h.elapsed start)
    intro ns
    exact bindEq (h.updateStats _) fun _ => h.acknowledge start

theorem handleGetchunks (env : Env) (argCount argChunk : Text) :
    Simulates R stuck Eq (handleGetchunks env argCount argChunk)
      (handleGetchunks env argCount argChunk) := by
  apply h.withChunkSize
  cases parseBounded argCount maxChunks with
  | none => exact h.writeLine _
  | some count =>
    apply bindEq h.instant
    intro start
    apply (h.downloadBuf env.randomChunk).bind
    rintro buf _ ⟨rfl,hbuf⟩
    apply bindEq (h.sendChunks hbuf count)
    intro _
    apply h.chunkSize.bind
    rintro n _ ⟨rfl,-⟩
    apply bindEq (h.elapsed start)
    intro ns
    exact bindEq (h.updateStats _) fun _ => h.acknowledge start

theorem report (start : Nat) (total : UInt64) (lastReport : Int) :
    Simulates R stuck Eq (report start total lastReport) (report start total lastReport) := by
  apply bindEq (h.elapsed start)
  intro ns
  apply Simulates.ite
  · exact bindEq (h.writeLine _) fun _ => .pure rfl
  · exact .pure rfl

theorem receiveChunks (start : Nat) (sendIntermediate : Bool) (fuel : Nat) (total : UInt64)
    (lastReport : Int) :
    Simulates R stuck Eq (receiveChunks start sendIntermediate fuel total lastReport)
      (receiveChunks start sendIntermediate fuel total lastReport) := by
  induction fuel generalizing total lastReport with
  | zero => exact .throw _
  | succ fuel ih =>
    apply h.chunkSize.bind
    rintro n _ ⟨rfl,hn⟩
    apply bindEq (h.readExact n hn)
    intro buf
    have htail {lastByte : UInt8} (t : UInt64) (r : Int) : Simulates R stuck Eq
        (if lastByte = 0xFF then pure t else Rmbtd.receiveChunks start sendIntermediate fuel t r)
        (if lastByte = 0xFF then pure t else Rmbtd.receiveChunks start sendIntermediate fuel t r) :=
      .ite (.pure rfl) (ih t r)
    cases buf[n-1]? with
    | none => exact .throw _
    | some lastByte =>
      apply Simulates.ite
      · exact bindEq (h.report start _ lastReport) fun r => htail _ r
      · exact bindEq (.pure rfl) fun r => htail _ r

theorem handlePut (argChunk : Text) (sendIntermediate : Bool) (fuel : Nat) :
    Simulates R stuck Eq (handlePut argChunk sendIntermediate fuel)
      (handlePut argChunk sendIntermediate fuel) := by
  apply h.withChunkSize
  apply bindEq (h.writeLine _)
  intro _
  apply bindEq h.instant
  intro start
  apply bindEq (h.receiveChunks start sendIntermediate fuel 0 _)
  intro total
  apply bindEq (h.elapsed start)
  intro ns
  exact bindEq (h.updateStats _) fun _ => h.writeLine _

theorem handlePing : Simulates R stuck Eq handlePing handlePing := by
  apply bindEq h.instant
  intro start
  apply bindEq (h.writeLine _)
  intro _
  apply h.readLine.bind
  intro a b hab
  rw [(h.sameLine a b hab).trim_eq]
  apply Simulates.ite
  · exact h.writeLine _
  · apply bindEq (h.elapsed start)
    intro ns
    exact bindEq (h.updateStats _) fun _ => h.writeLine _

/-- Both sessions have a handler for the same commands, and the handlers preserve the relation. -/
theorem handler (env : Env) (fuel : Nat) (cmd arg1 arg2 : Text) :
    (handler env fuel cmd arg1 arg2 : Option (Session σ Unit)) = none ∧
        (handler env fuel cmd arg1 arg2 : Option (Session τ Unit)) = none ∨
      ∃ m n, handler env fuel cmd arg1 arg2 = some m ∧ handler env fuel cmd arg1 arg2 = some n ∧
        Simulates R stuck Eq m n := by
  unfold Rmbtd.handler
  split
  · exact Or.inr ⟨_,_,rfl,rfl,h.handleGettime env arg1 arg2 fuel⟩
  split
  · exact Or.inr ⟨_,_,rfl,rfl,h.handleGetchunks env arg1 arg2⟩
  split
  · exact Or.inr ⟨_,_,rfl,rfl,h.handlePut arg1 true fuel⟩
  split
  · exact Or.inr ⟨_,_,rfl,rfl,h.handlePut arg1 false fuel⟩
  split
  · exact Or.inr ⟨_,_,rfl,rfl,h.handlePing⟩
  · exact Or.inl ⟨rfl,rfl⟩

theorem commandLoop (env : Env) (connId : Nat) (uuid : Text) (fuel : Nat) :
    Simulates R stuck Eq (commandLoop env connId uuid fuel) (commandLoop env connId uuid fuel) := by
  induction fuel with
  | zero => exact .throw _
  | succ fuel ih =>
    apply bindEq (h.writeLine _)
    intro _
    apply h.readLine.bind
    intro a b hab
    rw [(h.sameLine a b hab).trim_eq]
    apply bindEq (h.logText _ _ _)
    intro _
    apply h.chunkSize.bind
    rintro n _ ⟨rfl,-⟩
    apply bindEq h.stats
    intro s
    apply bindEq (h.command _ n s)
    intro _
    dsimp only
    rcases h.handler env fuel ((splitn 3 " " (trim b)).getD 0 [])
      (trim ((splitn 3 " " (trim b)).getD 1 [])) (trim ((splitn 3 " " (trim b)).getD 2 [])) with
      ⟨h1,h2⟩ | ⟨m,m',h1,h2,hm⟩
    · rw [h1,h2]
      apply Simulates.ite
      · exact bindEq (h.writeLine _) fun _ => h.logText _ _ _
      · apply bindEq (h.logText _ _ _)
        intro _
        exact bindEq (h.writeLine _) fun _ => ih
    · rw [h1,h2]
      apply bindEq (h.updateStats _)
      intro _
      exact bindEq hm fun _ => ih

theorem runCommands (env : Env) (connId : Nat) (uuid : Text) (fuel : Nat) :
    Simulates R stuck Eq (runCommands env connId uuid fuel) (runCommands env connId uuid fuel) := by
  apply bindEq h.started
  intro _
  exact bindEq (h.setChunkSize _ (by decide)) fun _ => h.commandLoop env connId uuid fuel

end CommandRelation

namespace GreetingRules

variable {R : World σ → World τ → Prop} {stuck : Stop → Prop} {V : Text → Text → Prop}
variable (h : GreetingRules R stuck V)
include h

theorem readToken (fuel : Nat) : Simulates R stuck V (readToken fuel) (readToken fuel) := by
  induction fuel with
  | zero => exact .throw _
  | succ fuel ih =>
    apply h.readLine.bind
    intro a b hab
    rw [(h.sameLine a b hab).trim_eq]
    apply Simulates.ite
    · exact ih
    · exact .pure hab

theorem tokenValue (connId : Nat) {a b : Text} (hab : V a b) :
    Simulates R stuck Eq (tokenValue connId a) (tokenValue connId b) := by
  have hsame := h.sameLine a b hab
  have hp : '\r' ∉ "TOKEN ".toList := by decide
  unfold Rmbtd.tokenValue
  rcases hsame.stripPrefix hp with ⟨ha,hb⟩ | ⟨x,y,ha,hb,hxy⟩
  · rw [ha,hb]
    dsimp only
    rw [hsame.trimStart.isPrefixOf_eq (by decide : '\r' ∉ "QUIT".toList)]
    apply Simulates.ite
    · exact (h.writeLine _).bind fun _ _ _ => .throw _
    · apply (h.logLine _ _ a b hab).bind
      intro _ _ _
      exact (h.writeLine _).bind fun _ _ _ => .throw _
  · rw [ha,hb]
    exact .pure hxy.trim_eq

theorem authEvent (sink : Sink) (connId : Nat) (token result : Text) (label reason : Option Text) :
    Simulates R stuck Eq (Rmbtd.auth sink connId token result label reason)
      (Rmbtd.auth sink connId token result label reason) := by
  apply Simulates.ite
  · exact h.auth _
  · exact .pure rfl

theorem authenticate {env : Env} {connId : Nat} {config : Config} {keys : List SecretKey}
    (sink : Sink) {token : Text} (hcheck : config.checkToken = true → Simulates R stuck Eq
      (checkToken env connId config keys token) (checkToken env connId config keys token)) :
    Simulates R stuck Eq (authenticate env connId config keys sink token)
      (authenticate env connId config keys sink token) := by
  unfold Rmbtd.authenticate
  cases hconfig : config.checkToken with
  | true =>
    simp only [if_true]
    apply (hcheck hconfig).bind
    rintro verdict _ rfl
    have hreject (rejected : TokenResult) : Simulates R stuck Eq
        (do
          Rmbtd.auth sink connId token "rejected" none (some (rejectReason rejected))
          writeLine "ERR\n"
          throw (.io tokenRejected) : Session σ Text)
        (do
          Rmbtd.auth sink connId token "rejected" none (some (rejectReason rejected))
          writeLine "ERR\n"
          throw (.io tokenRejected) : Session τ Text) := by
      apply (h.authEvent _ _ _ _ _ _).bind
      intro _ _ _
      exact (h.writeLine _).bind fun _ _ _ => .throw _
    cases verdict with
    | accepted sleepSecs label =>
      apply (h.logText _ _ _).bind
      intro _ _ _
      apply (h.authEvent _ _ _ _ _ _).bind
      intro _ _ _
      apply Simulates.ite
      · exact (h.sleep _).bind fun _ _ _ => .pure rfl
      · exact .pure rfl
    | invalidHmac => exact hreject _
    | invalidIp => exact hreject _
    | tooEarly _ => exact hreject _
    | tooLate _ => exact hreject _
    | parseError => exact hreject _
    | v2Required => exact hreject _
  | false =>
    simp only [Bool.false_eq_true,if_false]
    apply (h.logText _ _ _).bind
    intro _ _ _
    exact (h.authEvent _ _ _ _ _ _).bind fun _ _ _ => .pure rfl

end GreetingRules

namespace GreetingRelation

variable {R : World σ → World τ → Prop} {stuck : Stop → Prop} {V : Text → Text → Prop}
variable (h : GreetingRelation R stuck V)
include h

theorem rules : GreetingRules R stuck V := { h with }

theorem logAll (records : List LogRecord) :
    Simulates R stuck Eq (Session.logAll records) (Session.logAll records) := by
  induction records with
  | nil => exact .pure rfl
  | cons record records ih => exact (h.log record).bind fun _ _ _ => ih

theorem checkToken (env : Env) (connId : Nat) (config : Config) (keys : List SecretKey)
    (token : Text) :
    Simulates R stuck Eq (checkToken env connId config keys token)
      (checkToken env connId config keys token) := by
  apply h.peerAddr.bind
  rintro peer _ rfl
  apply h.validationClock.bind
  rintro clock _ rfl
  apply (h.logAll _).bind
  intro _ _ _
  exact (h.checked _ _ _ _ _).bind fun _ _ _ => .pure rfl

theorem runGreeting (env : Env) (connId : Nat) (config : Config) (keys : List SecretKey)
    (sink : Sink) (fuel : Nat) :
    Simulates R stuck Eq (runGreeting env connId config keys sink fuel)
      (runGreeting env connId config keys sink fuel) := by
  apply (h.writeLine _).bind
  intro _ _ _
  apply (h.writeLine _).bind
  intro _ _ _
  apply (h.rules.readToken fuel).bind
  intro a b hab
  apply (h.rules.tokenValue connId hab).bind
  rintro token _ rfl
  apply (h.rules.authenticate sink fun _ => h.checkToken env connId config keys token).bind
  rintro label _ rfl
  apply (h.writeLine _).bind
  intro _ _ _
  exact (h.writeLine _).bind fun _ _ _ => .pure rfl

end GreetingRelation

end Rmbtd
