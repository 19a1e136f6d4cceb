import Rmbtd.Protocol.Gate
import Rmbtd.Protocol.Rules

/-!
# Refused commands

What a command leaves behind that is answered with `ERR` for its arguments. `handle_gettime` and
`handle_getchunks` set the chunk size before they look at their first argument, so a command with a
valid size and a bad first argument is refused and changes the chunk size all the same.
-/

namespace Rmbtd

open Effect Session

variable {σ : Type} [LineStream σ]

/-! ## Refusals -/

def Event.isCommand : Event → Bool
  | .command _ _ _ => true
  | _ => false

def untilCommand (tr : List Event) : List Event := tr.takeWhile fun e => !e.isCommand

/-- The server answers with `ERR` and nothing else, and then it may ask for the next command. -/
def Refused (rest : List Event) : Prop :=
  written (untilCommand rest) = [.sentLine "ERR\n"] ∨
    written (untilCommand rest) = [.sentLine "ERR\n",.sentLine acceptLine]

instance (rest : List Event) : Decidable (Refused rest) := inferInstanceAs (Decidable (_ ∨ _))

def ConnStats.tests (s : ConnStats) : ConnStats := { s with commands := 0 }

@[simp] theorem ConnStats.tests_countCommand (s : ConnStats) : s.countCommand.tests = s.tests := rfl

/-- The chunk size and the statistics at the next command, or where the run ended. -/
def settingsAt (w : World σ) : List Event → Nat × ConnStats
  | [] => (w.chunkSize,w.stats.tests)
  | .command _ n s::_ => (n,s.tests)
  | _::tr => settingsAt w tr

/-- The arguments of a download whose size is valid and new, and whose first argument is not
valid. -/
def Halves (cmd arg1 arg2 : Text) (n : Nat) : Prop :=
  (cmd = "GETTIME" ∧ parseBounded arg1 maxSeconds = none ∨
    cmd = "GETCHUNKS" ∧ parseBounded arg1 maxChunks = none) ∧
  ∃ size ∈ parseChunkSize arg2 maxChunkSize, size ≠ n

instance (cmd arg1 arg2 : Text) (n : Nat) : Decidable (Halves cmd arg1 arg2 n) :=
  inferInstanceAs (Decidable (_ ∧ _))

def HalfApplied (line : Text) (n : Nat) : Prop :=
  let parts := splitn 3 " " line
  Halves (parts.getD 0 []) (trim (parts.getD 1 [])) (trim (parts.getD 2 [])) n

instance (line : Text) (n : Nat) : Decidable (HalfApplied line n) :=
  inferInstanceAs (Decidable (Halves _ _ _ _))

/-! ## Events of a handler -/

private def Quiet (tr : List Event) : Prop := ∀ e ∈ tr, e.isCommand = false

omit [LineStream σ] in
private theorem settingsAt_append {w : World σ} {tr tr' : List Event} (h : Quiet tr) :
    settingsAt w (tr ++ tr') = settingsAt w tr' := by
  induction tr with
  | nil => rfl
  | cons e tr ih =>
    have he := h e List.mem_cons_self
    have htr : settingsAt w (tr ++ tr') = settingsAt w tr' :=
      ih fun e he => h e (List.mem_cons_of_mem _ he)
    cases e <;> simp_all [settingsAt,Event.isCommand]

private theorem untilCommand_append {tr tr' : List Event} (h : Quiet tr) :
    untilCommand (tr ++ tr') = tr ++ untilCommand tr' := by
  unfold untilCommand
  rw [List.takeWhile_append_of_pos]
  intro e he
  simp [h e he]

private theorem written_concat (tr tr' : List Event) : written (tr ++ tr') = written tr ++ written tr' :=
  List.filter_append _ _

private theorem handlerRules : HandlerRules (σ := σ) (Appends fun e => e.isCommand = false) :=
  Appends.handlerRules (fun _ => rfl) (fun _ => rfl) (fun _ => rfl) fun _ => rfl

private def Opens {α : Type} (m : Session σ α) : Prop :=
  ∀ w, ∃ tr, (final (m w)).trace = w.trace ++ tr ∧ Quiet tr ∧
    (written tr).head? ≠ some (.sentLine "ERR\n")

namespace Opens
variable {α β : Type}

section
omit [LineStream σ]

private theorem after {m : Session σ α} {f : α → Session σ β} (hm : Appends (fun _ => False) m)
    (hf : ∀ a, Opens (f a)) : Opens (m >>= f) := by
  intro w
  obtain ⟨tr,htr,hnone⟩ := hm w
  have hnil : tr = [] := List.eq_nil_iff_forall_not_mem.mpr hnone
  subst hnil
  cases h : m w with
  | ok a w' =>
    rw [h] at htr
    rw [bind_ok h]
    obtain ⟨tr',htr',hrest⟩ := hf a w'
    exact ⟨tr',by simp_all,hrest⟩
  | error e w' =>
    rw [h] at htr
    rw [bind_error h]
    exact ⟨[],htr,by simp [Quiet],by simp [written]⟩

private theorem throw (e : Stop) : Opens (throw e : Session σ α) :=
  fun w => ⟨[],(List.append_nil _).symm,by simp [Quiet],by simp [written]⟩

private theorem elapsed {start : Nat} {f : Nat → Session σ β} (hf : ∀ ns, Opens (f ns)) :
    Opens (elapsed start >>= f) :=
  after (Appends.silent fun _ => rfl) hf

private theorem setLast {buf : Bytes} {terminal : Bool} {f : Bytes → Session σ β}
    (hf : ∀ chunk, Opens (f chunk)) : Opens (setLast buf terminal >>= f) := by
  apply after _ hf
  unfold Rmbtd.setLast
  split
  · exact Appends.silent fun _ => rfl
  · exact Appends.silent fun _ => rfl

private theorem downloadBuf {randomChunk : RandomChunk} {f : Bytes → Session σ β}
    (hf : ∀ buf, Opens (f buf)) : Opens (downloadBuf randomChunk >>= f) := by
  apply after _ hf
  apply Appends.bind (Appends.silent fun _ => rfl)
  intro n
  split
  · exact Appends.silent fun _ => rfl
  · exact Appends.silent fun _ => rfl

private theorem emit {e : Event} (he : e.isCommand = false) (hw : written [e] = [e])
    (hne : e ≠ .sentLine "ERR\n") {f : Unit → Session σ β}
    (hf : Appends (fun e => e.isCommand = false) (f ())) : Opens (emit e >>= f) := by
  intro w
  obtain ⟨tr,htr,hQ⟩ := hf { w with trace := w.trace ++ [e] }
  refine ⟨e::tr,?_,?_,?_⟩
  · have htr : (final ((Session.emit e >>= f) w)).trace = (w.trace ++ [e]) ++ tr := htr
    simp [htr]
  · intro e' he'
    rcases List.mem_cons.mp he' with rfl | he'
    · exact he
    · exact hQ e' he'
  · rw [← List.singleton_append,written_concat,hw]
    simpa using hne

end

private theorem writeLine {line : Text} (hne : line ≠ "ERR\n") {f : Unit → Session σ β}
    (hf : Appends (fun e => e.isCommand = false) (f ())) : Opens (writeLine line >>= f) := by
  have hbind : (Session.writeLine line >>= f : Session σ β) =
      Session.emit (.sentLine line) >>= fun _ => onStream (LineStream.writeAll (utf8 line)) >>= f :=
    bind_assoc _ _ _
  rw [hbind]
  exact emit rfl rfl (by simpa using hne) ((Appends.onStream _).bind fun _ => hf)

private theorem writeChunk {bytes : Bytes} {f : Unit → Session σ β}
    (hf : Appends (fun e => e.isCommand = false) (f ())) : Opens (writeChunk bytes >>= f) := by
  have hbind : (Session.writeChunk bytes >>= f : Session σ β) =
      Session.emit (.sentChunk bytes) >>= fun _ => onStream (LineStream.writeAll bytes) >>= f :=
    bind_assoc _ _ _
  rw [hbind]
  exact emit rfl rfl (by simp) ((Appends.onStream _).bind fun _ => hf)

private theorem gettime (env : Env) (limit fuel : Nat) : Opens (do
    let start ← instant
    let buf ← Rmbtd.downloadBuf env.randomChunk
    let sent ← sendFor buf start limit fuel 0
    let ns ← Session.elapsed start
    updateStats (.addDownload sent ns)
    acknowledge start : Session σ Unit) := by
  apply after (Appends.silent fun _ => rfl)
  intro start
  apply downloadBuf
  intro buf
  have hrest (sent : UInt64) : Appends (fun e => e.isCommand = false) (do
      let ns ← Session.elapsed start
      updateStats (.addDownload sent ns)
      acknowledge start : Session σ Unit) := by
    apply handlerRules.bind (handlerRules.elapsed start)
    intro ns
    apply handlerRules.bind (handlerRules.updateStats _)
    intro _
    exact handlerRules.acknowledge start
  cases fuel with
  | zero => exact throw .outOfFuel
  | succ fuel =>
    simp only [sendFor,bind_assoc]
    apply elapsed
    intro ns
    apply setLast
    intro chunk
    apply writeChunk
    apply handlerRules.bind handlerRules.chunkSize
    intro n
    split
    · exact handlerRules.bind (handlerRules.pure _) hrest
    · exact handlerRules.bind (handlerRules.sendFor buf start limit fuel _) hrest

private theorem getchunks (env : Env) {count : Nat} (hcount : 0 < count) : Opens (do
    let start ← instant
    let buf ← Rmbtd.downloadBuf env.randomChunk
    sendChunks buf count
    let n ← chunkSize
    let ns ← Session.elapsed start
    updateStats (.addDownload (UInt64.ofNat count * UInt64.ofNat n) ns)
    acknowledge start : Session σ Unit) := by
  apply after (Appends.silent fun _ => rfl)
  intro start
  apply downloadBuf
  intro buf
  cases count with
  | zero => exact absurd hcount (lt_irrefl 0)
  | succ left =>
    simp only [sendChunks,bind_assoc]
    apply setLast
    intro chunk
    apply writeChunk
    apply handlerRules.bind (handlerRules.sendChunks buf left)
    intro _
    apply handlerRules.bind handlerRules.chunkSize
    intro n
    apply handlerRules.bind (handlerRules.elapsed start)
    intro ns
    exact handlerRules.bind (handlerRules.updateStats _) fun _ => handlerRules.acknowledge start

end Opens

/-! ## Handlers -/

private def Treats (half : Nat → Prop) (m : Session σ Unit) : Prop :=
  ∀ w, ∃ tr, (final (m w)).trace = w.trace ++ tr ∧ Quiet tr ∧
    (written tr = [.sentLine "ERR\n"] ∧
        (settingsAt (final (m w)) [] = (w.chunkSize,w.stats.tests) ↔ ¬half w.chunkSize) ∨
      (written tr).head? ≠ some (.sentLine "ERR\n") ∧ ¬half w.chunkSize)

namespace Treats

omit [LineStream σ] in
private theorem opens {half : Nat → Prop} {m : Session σ Unit} (h : Opens m) (hhalf : ∀ n, ¬half n) :
    Treats half m := by
  intro w
  obtain ⟨tr,htr,hquiet,hhead⟩ := h w
  exact ⟨tr,htr,hquiet,Or.inr ⟨hhead,hhalf _⟩⟩

omit [LineStream σ] in
private theorem of_iff {half half' : Nat → Prop} {m : Session σ Unit} (h : Treats half m)
    (hiff : ∀ n, half' n ↔ half n) : Treats half' m := by
  have heq : half' = half := funext fun n => propext (hiff n)
  rwa [heq]

private theorem final_writeLine (line : Text) (w : World σ) :
    (final (writeLine line w)).trace = w.trace ++ [.sentLine line] ∧
      settingsAt (final (writeLine line w)) [] = (w.chunkSize,w.stats.tests) := by
  have hw : writeLine line w = onStream (LineStream.writeAll (utf8 line))
      { w with trace := w.trace ++ [.sentLine line] } := rfl
  rw [hw]
  unfold onStream
  cases LineStream.writeAll (utf8 line) w.stream <;> exact ⟨rfl,rfl⟩

private theorem refuse : Treats (σ := σ) (fun _ => False) (writeLine "ERR\n") := by
  intro w
  obtain ⟨htr,hsettings⟩ := final_writeLine "ERR\n" w
  refine ⟨[.sentLine "ERR\n"],htr,by simp [Quiet,Event.isCommand],Or.inl ⟨rfl,?_⟩⟩
  rw [hsettings]
  simp

private theorem setChunkSize_refuse (size : Nat) : Treats (σ := σ) (fun n => size ≠ n) (do
    setChunkSize size
    writeLine "ERR\n") := by
  intro w
  have hw : (do setChunkSize size; writeLine "ERR\n" : Session σ Unit) w =
      writeLine "ERR\n" { w with chunkSize := size } := rfl
  obtain ⟨htr,hsettings⟩ := final_writeLine "ERR\n" { w with chunkSize := size }
  rw [hw]
  refine ⟨[.sentLine "ERR\n"],htr,by simp [Quiet,Event.isCommand],Or.inl ⟨rfl,?_⟩⟩
  rw [hsettings]
  simp

private theorem withChunkSize {arg : Text} {m : Session σ Unit} {bad : Prop}
    (hm : bad ∧ m = writeLine "ERR\n" ∨ ¬bad ∧ Opens m) :
    Treats (fun n => bad ∧ ∃ size, parseChunkSize arg maxChunkSize = some size ∧ size ≠ n)
      (withChunkSize arg m) := by
  unfold Rmbtd.withChunkSize
  rcases hm with ⟨hbad,rfl⟩ | ⟨hbad,hopens⟩
  · split
    · next hnil =>
      have hnone : parseChunkSize [] maxChunkSize = none := by decide
      simpa [hnil,hnone] using refuse
    · cases parseChunkSize arg maxChunkSize with
      | none => simpa using refuse
      | some size => simpa [hbad] using setChunkSize_refuse size
  · split
    · exact opens hopens (by simp [hbad])
    · cases parseChunkSize arg maxChunkSize with
      | none => simpa using refuse
      | some size =>
        have hset : Opens (setChunkSize size >>= fun _ => m) :=
          Opens.after (Appends.silent fun _ => rfl) fun _ => hopens
        exact opens hset (by simp [hbad])

private theorem handleGettime (env : Env) (arg1 arg2 : Text) (fuel : Nat) :
    Treats (fun n => parseBounded arg1 maxSeconds = none ∧
        ∃ size, parseChunkSize arg2 maxChunkSize = some size ∧ size ≠ n)
      (handleGettime env arg1 arg2 fuel : Session σ Unit) := by
  apply withChunkSize
  cases parseBounded arg1 maxSeconds with
  | none => simp
  | some seconds => simpa using Opens.gettime env _ fuel

private theorem handleGetchunks (env : Env) (arg1 arg2 : Text) :
    Treats (fun n => parseBounded arg1 maxChunks = none ∧
        ∃ size, parseChunkSize arg2 maxChunkSize = some size ∧ size ≠ n)
      (handleGetchunks env arg1 arg2 : Session σ Unit) := by
  apply withChunkSize
  cases h : parseBounded arg1 maxChunks with
  | none => simp
  | some count =>
    have hcount : 0 < count := by
      have hf := (Option.filter_eq_some_iff.mp h).2
      simp only [decide_eq_true_eq] at hf
      exact hf.1
    simpa using Opens.getchunks env hcount

private theorem handlePut (arg : Text) (sendIntermediate : Bool) (fuel : Nat) :
    Treats (fun _ => False) (handlePut arg sendIntermediate fuel : Session σ Unit) := by
  have hopens : Opens (do
      writeLine "OK\n"
      let start ← instant
      let total ← receiveChunks start sendIntermediate fuel 0 (-2^127)
      let ns ← elapsed start
      updateStats (.addUpload total ns)
      writeLine (timeLine ns) : Session σ Unit) := by
    apply Opens.writeLine (by decide)
    apply handlerRules.bind handlerRules.instant
    intro start
    apply handlerRules.bind (handlerRules.receiveChunks start sendIntermediate fuel 0 _)
    intro total
    apply handlerRules.bind (handlerRules.elapsed start)
    intro ns
    exact handlerRules.bind (handlerRules.updateStats _) fun _ => handlerRules.writeLine _
  exact (withChunkSize (Or.inr ⟨not_false,hopens⟩)).of_iff (by simp)

private theorem handlePing : Treats (fun _ => False) (handlePing : Session σ Unit) := by
  apply opens _ fun _ => not_false
  apply Opens.after (Appends.silent fun _ => rfl)
  intro start
  apply Opens.writeLine (by decide)
  apply handlerRules.bind handlerRules.readLine
  intro ack
  split
  · exact handlerRules.writeLine _
  · apply handlerRules.bind (handlerRules.elapsed start)
    intro ns
    exact handlerRules.bind (handlerRules.updateStats _) fun _ => handlerRules.writeLine _

private theorem handler {env : Env} {fuel : Nat} {cmd arg1 arg2 : Text} {m : Session σ Unit}
    (hm : handler env fuel cmd arg1 arg2 = some m) : Treats (Halves cmd arg1 arg2) m := by
  unfold Rmbtd.handler at hm
  split at hm
  · next hcmd =>
    cases hm
    exact (handleGettime env arg1 arg2 fuel).of_iff (by simp [Halves,hcmd])
  split at hm
  · next hcmd =>
    cases hm
    exact (handleGetchunks env arg1 arg2).of_iff (by simp [Halves,hcmd])
  split at hm
  · next hcmd =>
    cases hm
    exact (handlePut arg1 true fuel).of_iff (by simp [Halves,hcmd])
  split at hm
  · next hcmd =>
    cases hm
    exact (handlePut arg1 false fuel).of_iff (by simp [Halves,hcmd])
  split at hm
  · next hcmd =>
    cases hm
    exact handlePing.of_iff (by simp [Halves,hcmd])
  · cases hm

end Treats

/-! ## The command loop -/

private def Kept (tr : List Event) (w : World σ) : Prop :=
  ∀ pre line n s rest, tr = pre ++ .command line n s::rest →
    ((Refused rest → settingsAt w rest = (n,s.tests)) ↔ ¬HalfApplied line n)

private structure Asks (w : World σ) (tr : List Event) (w' : World σ) : Prop where
  trace : w'.trace = w.trace ++ tr
  asks : written (untilCommand tr) = [] ∨ written (untilCommand tr) = [.sentLine acceptLine]
  settings : settingsAt w' tr = (w.chunkSize,w.stats.tests)
  kept : Kept tr w'

private theorem refused_iff {tr tr' : List Event} (hquiet : Quiet tr)
    (hopen : written tr = [.sentLine "ERR\n"] ∨ (written tr).head? ≠ some (.sentLine "ERR\n"))
    (hasks : written (untilCommand tr') = [] ∨
      written (untilCommand tr') = [.sentLine acceptLine]) :
    Refused (tr ++ tr') ↔ written tr = [.sentLine "ERR\n"] := by
  have haccept : Event.sentLine acceptLine ≠ .sentLine "ERR\n" := by
    intro h
    exact absurd (Event.sentLine.inj h) (by decide)
  unfold Refused
  rw [untilCommand_append hquiet,written_concat]
  generalize written tr = ws at *
  generalize Event.sentLine "ERR\n" = err at *
  generalize Event.sentLine acceptLine = accept at *
  cases ws with
  | nil => rcases hasks with h | h <;> simp [h,haccept]
  | cons e ws =>
    rcases hopen with h | h
    · rcases hasks with h' | h' <;> simp [h,h']
    · have he : e ≠ err := by simpa using h
      simp [he]

omit [LineStream σ] in
private theorem Kept.quiet {w : World σ} {tr : List Event} (h : Quiet tr) : Kept tr w := by
  intro pre line n s rest htr
  have hcommand := h (.command line n s) (by simp [htr])
  simp [Event.isCommand] at hcommand

omit [LineStream σ] in
private theorem Kept.append {w : World σ} {tr tr' : List Event} (hquiet : Quiet tr)
    (h : Kept tr' w) : Kept (tr ++ tr') w := by
  intro pre line n s rest htr
  rcases List.append_eq_append_iff.mp htr with ⟨as,-,hr⟩ | ⟨bs,hl,hr⟩
  · exact h as line n s rest hr
  · cases bs with
    | nil => exact h [] line n s rest hr.symm
    | cons e bs =>
      have he : .command line n s = e := (List.cons.inj hr).1
      have hcommand := hquiet (.command line n s) (by simp [hl,he])
      simp [Event.isCommand] at hcommand

omit [LineStream σ] in
private theorem Kept.cons {w : World σ} {tr : List Event} {line : Text} {n : Nat} {s : ConnStats}
    (hfirst : (Refused tr → settingsAt w tr = (n,s.tests)) ↔ ¬HalfApplied line n) (h : Kept tr w) :
    Kept (.command line n s::tr) w := by
  intro pre line' n' s' rest htr
  cases pre with
  | nil =>
    cases htr
    exact hfirst
  | cons e pre => exact h pre line' n' s' rest (List.cons.inj htr).2

private def Served (half : Nat → Prop) (w w' : World σ) : Prop :=
  ∃ tr, w'.trace = w.trace ++ tr ∧ Kept tr w' ∧
    ((Refused tr → settingsAt w' tr = (w.chunkSize,w.stats.tests)) ↔ ¬half w.chunkSize)

omit [LineStream σ] in
private theorem Treats.served {half : Nat → Prop} {w u w' : World σ} {tr tr' : List Event}
    (htr : u.trace = w.trace ++ tr) (hquiet : Quiet tr)
    (htreats : written tr = [.sentLine "ERR\n"] ∧
        (settingsAt u [] = (w.chunkSize,w.stats.tests) ↔ ¬half w.chunkSize) ∨
      (written tr).head? ≠ some (.sentLine "ERR\n") ∧ ¬half w.chunkSize)
    (hasks : Asks u tr' w') : Served half w w' := by
  refine ⟨tr ++ tr',?_,.append hquiet hasks.kept,?_⟩
  · rw [hasks.trace,htr,List.append_assoc]
  have hopen := htreats.imp And.left And.left
  rw [refused_iff hquiet hopen hasks.asks,settingsAt_append hquiet,hasks.settings]
  rcases htreats with ⟨hwritten,hiff⟩ | ⟨hhead,hhalf⟩
  · simpa [hwritten,settingsAt] using hiff
  · have hne : written tr ≠ [.sentLine "ERR\n"] := by
      intro h
      simp [h] at hhead
    exact ⟨fun _ => hhalf,fun _ h => absurd h hne⟩

omit [LineStream σ] in
private theorem Asks.stop (w : World σ) : Asks w [] w where
  trace := (List.append_nil _).symm
  asks := Or.inl rfl
  settings := rfl
  kept := .quiet (by simp [Quiet])

omit [LineStream σ] in
private theorem Treats.last {half : Nat → Prop} {m : Session σ Unit} (hm : Treats half m)
    (w : World σ) : Served half w (final (m w)) := by
  obtain ⟨tr,htr,hquiet,htreats⟩ := hm w
  exact served htr hquiet htreats (.stop _)

omit [LineStream σ] in
private theorem Treats.next {half : Nat → Prop} {m loop : Session σ Unit} (hm : Treats half m)
    (hloop : ∀ w, ∃ tr, Asks w tr (final (loop w))) (w : World σ) :
    Served half w (final ((m >>= fun _ => loop) w)) := by
  obtain ⟨tr,htr,hquiet,htreats⟩ := hm w
  cases hw : m w with
  | ok a u =>
    rw [hw] at htr htreats
    rw [bind_ok hw]
    obtain ⟨tr',hasks⟩ := hloop u
    exact served htr hquiet htreats hasks
  | error e u =>
    rw [hw] at htr htreats
    rw [bind_error hw]
    exact served htr hquiet htreats (.stop u)

private theorem Treats.unknown (connId : Nat) (cmd : Text) : Treats (σ := σ) (fun _ => False) (do
    log .error (connTag connId ++ "unknown command: ") (some cmd)
    writeLine "ERR\n") := by
  intro w
  let record : Event := .logged ⟨.error,connTag connId ++ "unknown command: ",some cmd⟩
  have hw : (do
      log .error (connTag connId ++ "unknown command: ") (some cmd)
      writeLine "ERR\n" : Session σ Unit) w =
        writeLine "ERR\n" { w with trace := w.trace ++ [record] } := rfl
  rw [hw]
  obtain ⟨tr,htr,hquiet,htreats⟩ := refuse { w with trace := w.trace ++ [record] }
  refine ⟨record::tr,?_,?_,htreats⟩
  · rw [htr]
    exact List.append_assoc _ [record] _
  · intro e he
    rcases List.mem_cons.mp he with rfl | he
    · rfl
    · exact hquiet e he

private theorem Treats.quit (connId : Nat) (uuid : Text) : Treats (σ := σ) (fun _ => False) (do
    writeLine "BYE\n"
    log .info (connTag connId ++ "QUIT received; uuid=" ++ uuid)) :=
  opens (Opens.writeLine (by decide) (Appends.emit rfl)) fun _ => not_false

private def dispatch (env : Env) (connId : Nat) (uuid : Text) (fuel : Nat) (line : Text) :
    Session σ Unit :=
  let parts := splitn 3 " " line
  let cmd := parts.getD 0 []
  match handler env fuel cmd (trim (parts.getD 1 [])) (trim (parts.getD 2 [])) with
  | some handle => do
    updateStats .countCommand
    handle
    commandLoop env connId uuid fuel
  | none =>
    if cmd = "QUIT" then do
      writeLine "BYE\n"
      log .info (connTag connId ++ "QUIT received; uuid=" ++ uuid)
    else do
      log .error (connTag connId ++ "unknown command: ") (some cmd)
      writeLine "ERR\n"
      commandLoop env connId uuid fuel

private theorem not_halves_of_none {env : Env} {fuel : Nat} {cmd arg1 arg2 : Text} {n : Nat}
    (h : (handler env fuel cmd arg1 arg2 : Option (Session σ Unit)) = none) :
    ¬Halves cmd arg1 arg2 n := by
  rintro ⟨⟨rfl,-⟩ | ⟨rfl,-⟩,-⟩
  · simp [handler] at h
  · simp [handler] at h

private theorem dispatch_served {env : Env} {connId : Nat} {uuid : Text} {fuel : Nat}
    (hloop : ∀ w : World σ, ∃ tr, Asks w tr (final (commandLoop env connId uuid fuel w)))
    (line : Text) (w : World σ) :
    Served (HalfApplied line) w (final (dispatch env connId uuid fuel line w)) := by
  unfold dispatch HalfApplied
  dsimp only
  generalize (splitn 3 " " line).getD 0 [] = cmd
  generalize trim ((splitn 3 " " line).getD 1 []) = arg1
  generalize trim ((splitn 3 " " line).getD 2 []) = arg2
  cases hm : (handler env fuel cmd arg1 arg2 : Option (Session σ Unit)) with
  | some m => exact (Treats.handler hm).next hloop { w with stats := w.stats.countCommand }
  | none =>
    have hhalf (n : Nat) : Halves cmd arg1 arg2 n ↔ False := iff_of_false (not_halves_of_none hm) not_false
    dsimp only
    split
    · exact ((Treats.quit connId uuid).of_iff hhalf).last w
    · have hnext := ((Treats.unknown connId cmd).of_iff hhalf).next hloop w
      simpa only [bind_assoc] using hnext

private theorem commandLoop_asks (env : Env) (connId : Nat) (uuid : Text) (fuel : Nat) (w : World σ) :
    ∃ tr, Asks w tr (final (commandLoop env connId uuid fuel w)) := by
  induction fuel generalizing w with
  | zero => exact ⟨[],.stop w⟩
  | succ fuel ih =>
    have hquiet : Quiet [.sentLine acceptLine] := by simp [Quiet,Event.isCommand]
    cases hwrite : LineStream.writeAll (utf8 acceptLine) w.stream with
    | error e s =>
      have hw : commandLoop env connId uuid (fuel+1) w =
          .error (.io e) { w with stream := s, trace := w.trace ++ [.sentLine acceptLine] } :=
        bind_error (onStream_error hwrite)
      rw [hw]
      exact ⟨[.sentLine acceptLine],rfl,Or.inr rfl,rfl,.quiet hquiet⟩
    | ok a s =>
      cases hread : LineStream.readLine s with
      | error e s' =>
        have hw : commandLoop env connId uuid (fuel+1) w =
            .error (.io e) { w with stream := s', trace := w.trace ++ [.sentLine acceptLine] } :=
          (bind_ok (writeLine_ok hwrite)).trans (bind_error (readLine_error hread))
        rw [hw]
        exact ⟨[.sentLine acceptLine],rfl,Or.inr rfl,rfl,.quiet hquiet⟩
      | ok line s' =>
        let record : Event := .logged ⟨.debug,connTag connId ++ "command: ",some (trim line)⟩
        let head : List Event := [.sentLine acceptLine,.received line,record]
        let u : World σ := { w with
          stream := s'
          trace := w.trace ++ [.sentLine acceptLine] ++ [.received line] ++ [record] ++
            [.command (trim line) w.chunkSize w.stats] }
        have hw : commandLoop env connId uuid (fuel+1) w =
            dispatch env connId uuid fuel (trim line) u :=
          (bind_ok (writeLine_ok hwrite)).trans (bind_ok (readLine_ok hread))
        obtain ⟨tr,htr,hkept,hserved⟩ := dispatch_served ih (trim line) u
        have hhead : Quiet head := by simp [Quiet,Event.isCommand,head,record]
        rw [hw]
        refine ⟨head ++ .command (trim line) w.chunkSize w.stats::tr,?_,?_,?_,?_⟩
        · rw [htr]
          simp [u,head]
        · rw [untilCommand_append hhead]
          exact Or.inr rfl
        · rw [settingsAt_append hhead]
          rfl
        · exact .append hhead (.cons hserved hkept)

/-- A command that is refused for its arguments leaves the chunk size and the download, upload and
ping statistics as they were, unless it is a download with a valid, new size and a first argument
that is not valid: in every run and for every command of it. -/
theorem runCommands_refusal_iff (env : Env) (connId : Nat) (uuid : Text) (fuel : Nat) (w : World σ)
    (pre rest : List Event) (line : Text) (n : Nat) (s : ConnStats)
    (htrace : (final (runCommands env connId uuid fuel w)).trace =
      w.trace ++ pre ++ .command line n s::rest) :
    (Refused rest → settingsAt (final (runCommands env connId uuid fuel w)) rest = (n,s.tests)) ↔
      ¬HalfApplied line n := by
  let u : World σ :=
    { w with trace := w.trace ++ [.commandsStarted], chunkSize := defaultChunkSize }
  have hw : runCommands env connId uuid fuel w = commandLoop env connId uuid fuel u := rfl
  rw [hw] at htrace ⊢
  obtain ⟨tr,hasks⟩ := commandLoop_asks env connId uuid fuel u
  have hstart : Quiet [.commandsStarted] := by simp [Quiet,Event.isCommand]
  have hkept : Kept (.commandsStarted::tr) (final (commandLoop env connId uuid fuel u)) :=
    Kept.append hstart hasks.kept
  apply hkept pre
  have htr := hasks.trace
  rw [htrace] at htr
  simpa [u] using htr.symm

/-- A client that asks for no time, with the chunk size it has already. -/
def refusedConn : RawConn := { goldenConn with input := utf8 "GETTIME 0 4096\nQUIT\n" }

theorem runCommands_refusal_iff_golden :
    let run := runCommands goldenEnv 1 [] 2 (World.start (Stream.raw refusedConn) id fun _ => 0)
    Refused ((final run).trace.drop 5) ∧
      settingsAt (final run) ((final run).trace.drop 5) = (4096,.new) := by
  intro run
  have hrefused : Refused ((final run).trace.drop 5) := by decide +kernel
  have htrace : (final run).trace = [] ++ (final run).trace.take 4 ++
      .command "GETTIME 0 4096" 4096 .new::(final run).trace.drop 5 := by decide +kernel
  exact ⟨hrefused,(runCommands_refusal_iff goldenEnv 1 [] 2
    (World.start (Stream.raw refusedConn) id fun _ => 0) _ _ _ _ _ htrace).mpr (by decide)
      hrefused⟩

/-- A client that asks for no chunks, with a new chunk size. -/
def halvingConn : RawConn := { goldenConn with input := utf8 "GETCHUNKS 0 8192\nQUIT\n" }

/-- The command is answered with `ERR`, and the chunk size is another one afterwards. -/
theorem runCommands_refusal_halves :
    let run := runCommands goldenEnv 1 [] 2 (World.start (Stream.raw halvingConn) id fun _ => 0)
    (final run).trace = (final run).trace.take 4 ++
        .command "GETCHUNKS 0 8192" 4096 .new::(final run).trace.drop 5 ∧
      Refused ((final run).trace.drop 5) ∧
      settingsAt (final run) ((final run).trace.drop 5) = (8192,.new) := by
  decide +kernel

end Rmbtd
