import Rmbtd.Config.CommandLine
import Rmbtd.Library.Effect
import Rmbtd.Logger
import Rmbtd.Server.Startup

/-!
# The process

`run` in `main.rs` up to the accept loop, with everything that the main thread writes on the way:
messages on the console while there is no logger, log records after.
-/

namespace Rmbtd

open Effect

/-- What the process writes. The help and the version go to the standard output. -/
inductive Report
  | stdout
  | stderr (text : Text)
  | logged (level : Level) (text : Text)
deriving DecidableEq

/-- What the user sees, and which records the logger lets through. -/
structure Console where
  filter : LevelFilter
  reports : List Report
deriving DecidableEq

inductive Exit
  | success
  | failure
  | panicked
deriving DecidableEq

/-- The process up to its accept loop, if it gets there. -/
abbrev Process := EStateM Exit Console

structure ProcessHost extends Host where
  version : Text
  /-- Setting up `env_logger`. -/
  tryInit : Except Text Unit
  /-- The socket of `EventSink::new`. -/
  newSink : SocketAddr → Except Text Unit

def LevelFilter.allows : LevelFilter → Level → Bool
  | .off,_ => false
  | .error,level => level = .error
  | .warn,level => level = .error || level = .warn
  | .info,level => level ≠ .debug
  | .debug,_ => true
  | .trace,_ => true

namespace Process

def write (report : Report) : Process Unit :=
  modify fun c => { c with reports := c.reports ++ [report] }

def log (level : Level) (text : Text) : Process Unit := fun c =>
  if c.filter.allows level then write (.logged level text) c else .ok () c

def init (host : ProcessHost) (level : LevelFilter) : Process Unit :=
  match host.tryInit with
  | .ok () => modify fun c => { c with filter := level }
  | .error e => do
    write (.stderr ("error: logger init failed: ".toList ++ e))
    throw .failure

/-- The keys of the key file. Without a token check the server also starts without any. -/
def readKeys (host : Host) (config : Config) : Process (List SecretKey) :=
  match readSecretKeys host.readToString config.secretKeyPath with
  | .ok keys => pure keys
  | .error e =>
    if config.checkToken then do
      log .error ("failed to load secret keys: ".toList ++ e)
      throw .failure
    else do
      log .warn ("no secret keys loaded (".toList ++ e ++ "); /ip will refuse every token".toList)
      return []

def loadKeys (host : Host) (config : Config) : Process (List SecretKey) := do
  let keys ← readKeys host config
  if config.checkToken = false then
    log .info "token checking disabled for the measurement (not for /ip)"
  log .info ("loaded ".toList ++ natText keys.length ++ " secret key(s) from '".toList ++
    config.secretKeyPath ++ "'".toList)
  return keys

def configureTls (host : Host) (config : Config) : Process Bool :=
  match config.certPath, config.keyPath with
  | some cert, some key => match host.buildTlsConfig cert key config.tls13Only with
    | .ok () => do
      let versions := if config.tls13Only then "TLS1.3 only" else "TLS1.2+1.3"
      log .info ("TLS configured (cert=".toList ++ cert ++ ", key=".toList ++ key ++ ", ".toList ++
        versions.toList ++ ")".toList)
      return true
    | .error e => do
      log .error ("TLS config failed: ".toList ++ e ++ " — TLS disabled".toList)
      return false
  | _, _ => do
    log .info "no cert/key configured — TLS disabled"
    return false

def bindListeners (host : Host) (protocol : Text) (bound : List SocketAddr) :
    List SocketAddr → Process (List SocketAddr)
  | [] => pure []
  | addr::addrs => match host.bind bound addr with
    | .ok () => do
      log .info (protocol ++ " listening on ".toList ++ addr.toText)
      return addr::(← bindListeners host protocol (bound ++ [addr]) addrs)
    | .error e => do
      log .error (protocol ++ " bind on ".toList ++ addr.toText ++ " failed: ".toList ++ e)
      throw .failure

/-- A panic of the main thread, with its message. -/
def panicWith {α : Type} (message : Text) : Process α := do
  write (.stderr message)
  throw .panicked

/-- A thread for each worker. -/
def spawnThreads (host : Host) : List Nat → Process Unit
  | [] => pure ()
  | id::ids => match host.spawn id with
    | .ok () => spawnThreads host ids
    | .error e => panicWith ("failed to spawn worker thread: ".toList ++ e)

def spawnWorkers (host : Host) (numWorkers : Nat) : Process (List Nat) :=
  match host.reserve numWorkers with
  | .ok () => do
    spawnThreads host (List.range numWorkers)
    return List.range numWorkers
  | .error e => panicWith e

def newServer (host : Host) (config : Config) (tcpAddrs tlsAddrs : List SocketAddr) :
    Process (Server × List SocketAddr × List SocketAddr) := do
  let keys ← loadKeys host config
  let tls ← configureTls host config
  let tcpListeners ← bindListeners host "TCP" [] tcpAddrs
  let tlsListeners ← bindListeners host "TLS" tcpListeners (if tls then tlsAddrs else [])
  let senders ← spawnWorkers host config.numWorkers
  return (⟨config,keys,tls,senders⟩,tcpListeners,tlsListeners)

/-- `Server::run` up to its loop; `main` reports its errors. -/
def runServer (host : Host) (server : Server) (tcpListeners tlsListeners : List SocketAddr) :
    Process ServerState := do
  let listeners := tcpListeners.map (fun _ => false) ++ tlsListeners.map (fun _ => true)
  if listeners = [] then
    log .error "server error: no listeners bound"
    throw .failure
  match host.poll with
  | .ok () =>
    log .info ("ready for connections (".toList ++ natText listeners.length ++ " listener(s))".toList)
    return .start server.senders.length listeners
  | .error e =>
    log .error ("server error: ".toList ++ e)
    throw .failure

def readCli (parseLevel : Text → Except Text LevelFilter) (args : List Text) : Process Cli :=
  match parseCli parseLevel args with
  | .ok cli => pure cli
  | .error .printed => do
    write .stdout
    throw .success
  | .error (.error e) => do
    write (.stderr ("error: ".toList ++ e))
    throw .failure
  | .error (.unknownOption option) => do
    write (.stderr ("unknown option '".toList ++ option ++ "'\n".toList))
    write .stdout
    throw .failure

def openSink (host : ProcessHost) : Option SocketAddr → Process Unit
  | none => pure ()
  | some target => match host.newSink target with
    | .ok () => log .info ("syslog event logging to ".toList ++ target.toText)
    | .error e => do
      log .error ("syslog target ".toList ++ target.toText ++ " unusable: ".toList ++ e)
      throw .failure

def prepare (host : ProcessHost) (config : Config) : Process Unit := do
  if config.logLevel ≠ .off then init host config.logLevel
  log .info ("starting rmbtd v".toList ++ host.version)
  log .info ("version string: ".toList ++ trim (greetingLine host.version))
  openSink host config.syslogTarget

def run (host : ProcessHost) (parseLevel : Text → Except Text LevelFilter) (args : List Text) :
    Process ServerState := do
  let cli ← readCli parseLevel args
  prepare host cli.config
  let (server,tcpListeners,tlsListeners) ← newServer host.toHost cli.config cli.tcpAddrs cli.tlsAddrs
  runServer host.toHost server tcpListeners tlsListeners

def console : Console := ⟨.off,[]⟩

/-! ## The server that is started -/

/-- The process gets as far as a computation that writes nothing. -/
def Mirrors {α : Type} (m : Process α) (x : Except StartupError α) : Prop :=
  ∀ c, ∃ c', m c = match x with
    | .ok a => .ok a c'
    | .error (.failed _) => .error .failure c'
    | .error .panicked => .error .panicked c'

namespace Mirrors

variable {α β : Type} {m : Process α} {x : Except StartupError α}

theorem pure (a : α) : Mirrors (Pure.pure a) (.ok a) := fun c => ⟨c,rfl⟩

theorem bind {f : α → Process β} {g : α → Except StartupError β} (hm : Mirrors m x)
    (hf : ∀ a, x = .ok a → Mirrors (f a) (g a)) : Mirrors (m >>= f) (x >>= g) := by
  intro c
  obtain ⟨c₁,h₁⟩ := hm c
  cases x with
  | ok a =>
    obtain ⟨c₂,h₂⟩ := hf a rfl c₁
    exact ⟨c₂,(bind_ok h₁).trans h₂⟩
  | error e => cases e with
    | failed message => exact ⟨c₁,bind_error h₁⟩
    | panicked => exact ⟨c₁,bind_error h₁⟩

theorem log (level : Level) (text : Text) : Mirrors (Process.log level text) (.ok ()) := by
  intro c
  unfold Process.log
  split
  · exact ⟨_,rfl⟩
  · exact ⟨_,rfl⟩

theorem bind_value {a : β} {n : Process β} {f : β → Process α} (hn : Mirrors n (.ok a))
    (hf : Mirrors (f a) x) : Mirrors (n >>= f) x := by
  refine hn.bind (g := fun _ => x) ?_
  rintro _ ⟨⟩
  exact hf

theorem log_bind {level : Level} {text : Text} {f : Unit → Process α} (h : Mirrors (f ()) x) :
    Mirrors (Process.log level text >>= f) x :=
  (log level text).bind_value h

theorem fail (message : Text) : Mirrors (throw .failure : Process α) (.error (.failed message)) :=
  fun c => ⟨c,rfl⟩

theorem panicWith (message : Text) : Mirrors (Process.panicWith message : Process α) (.error .panicked) :=
  fun _ => ⟨_,rfl⟩

theorem eq_ok {c c' : Console} {a : α} (h : Mirrors m x) (hm : m c = .ok a c') : x = .ok a := by
  obtain ⟨c₁,h₁⟩ := h c
  rw [hm] at h₁
  cases x with
  | ok b =>
    cases h₁
    rfl
  | error e => cases e with
    | _ => cases h₁

end Mirrors

theorem loadKeys_mirrors (host : Host) (config : Config) :
    Mirrors (loadKeys host config) (Server.loadKeys host config) := by
  rw [← bind_pure (Server.loadKeys host config)]
  unfold loadKeys
  apply Mirrors.bind
  · unfold readKeys Server.loadKeys
    cases readSecretKeys host.readToString config.secretKeyPath with
    | ok keys => exact .pure keys
    | error e =>
      dsimp only
      split
      · exact .log_bind (.fail e)
      · exact .log_bind (.pure [])
  · intro keys _
    dsimp only
    split
    · exact .log_bind (.log_bind (.pure keys))
    · exact .log_bind (.pure keys)

theorem configureTls_mirrors (host : Host) (config : Config) :
    Mirrors (configureTls host config) (.ok (Server.configureTls host config)) := by
  unfold configureTls
  split
  · next cert key hcert hkey =>
    cases hbuild : host.buildTlsConfig cert key config.tls13Only with
    | ok u =>
      have hvalue : Server.configureTls host config = true := by
        simp [Server.configureTls,hcert,hkey,hbuild,Except.toBool]
      rw [hvalue]
      exact .log_bind (.pure true)
    | error e =>
      have hvalue : Server.configureTls host config = false := by
        simp [Server.configureTls,hcert,hkey,hbuild,Except.toBool]
      rw [hvalue]
      exact .log_bind (.pure false)
  · next hnone =>
    have hvalue : Server.configureTls host config = false := by
      unfold Server.configureTls
      split
      · next cert key hcert hkey => exact absurd hkey (hnone cert key hcert)
      · rfl
    rw [hvalue]
    exact .log_bind (.pure false)

theorem bindListeners_mirrors (host : Host) (protocol : Text) (bound addrs : List SocketAddr) :
    Mirrors (bindListeners host protocol bound addrs) (Server.bindListeners host protocol bound addrs) := by
  induction addrs generalizing bound with
  | nil => exact .pure []
  | cons addr addrs ih =>
    unfold bindListeners Server.bindListeners
    cases host.bind bound addr with
    | ok u => exact .log_bind ((ih (bound ++ [addr])).bind fun rest _ => .pure (addr::rest))
    | error e => exact .log_bind (.fail _)

theorem spawnThreads_mirrors (host : Host) (ids : List Nat) : Mirrors (spawnThreads host ids)
    (if ids.all (fun id => (host.spawn id).toBool) then .ok () else .error .panicked) := by
  induction ids with
  | nil => exact .pure ()
  | cons id ids ih =>
    unfold spawnThreads
    cases hspawn : host.spawn id with
    | ok u => simpa [hspawn,Except.toBool] using ih
    | error e => simpa [hspawn,Except.toBool] using .panicWith _

theorem spawnWorkers_mirrors (host : Host) (numWorkers : Nat) :
    Mirrors (spawnWorkers host numWorkers) (Server.spawnWorkers host numWorkers) := by
  unfold spawnWorkers Server.spawnWorkers
  cases hreserve : host.reserve numWorkers with
  | error e => simpa [Except.toBool] using .panicWith e
  | ok u =>
    have hthreads := spawnThreads_mirrors host (List.range numWorkers)
    dsimp only
    change Mirrors _ (if (List.range numWorkers).all (fun id => (host.spawn id).toBool) then
      .ok (List.range numWorkers) else .error .panicked)
    split
    · next hall =>
      rw [if_pos hall] at hthreads
      exact hthreads.bind_value (.pure _)
    · next hall =>
      rw [if_neg hall] at hthreads
      refine hthreads.bind (g := fun _ => .ok (List.range numWorkers)) fun _ h => ?_
      cases h

theorem newServer_mirrors (host : Host) (config : Config) (tcpAddrs tlsAddrs : List SocketAddr) :
    Mirrors (newServer host config tcpAddrs tlsAddrs) (Server.new host config tcpAddrs tlsAddrs) := by
  apply (loadKeys_mirrors host config).bind
  intro keys _
  apply (configureTls_mirrors host config).bind_value
  apply (bindListeners_mirrors host "TCP" [] tcpAddrs).bind
  intro tcp _
  apply (bindListeners_mirrors host "TLS" tcp _).bind
  intro tls _
  exact (spawnWorkers_mirrors host config.numWorkers).bind fun senders _ => .pure _

theorem runServer_mirrors (host : Host) (server : Server) (tcp tls : List SocketAddr) :
    Mirrors (runServer host server tcp tls) ((server.run host tcp tls).mapError .failed) := by
  unfold runServer Server.run
  dsimp only
  split
  · exact .log_bind (.fail _)
  · cases host.poll with
    | ok u => exact .log_bind (.pure _)
    | error e => exact .log_bind (.fail e)

end Process

/-! ## What is written -/

/-- A message that says why the process fails. Without a usable certificate it goes on. -/
def Report.isReason : Report → Bool
  | .stderr _ => true
  | .logged .error text => !List.isPrefixOf "TLS config failed: ".toList text
  | _ => false

/-- The address a record says the server listens on, and whether it is for TLS. -/
def Report.listening : Report → Option (Bool × SocketAddr)
  | .logged .info text =>
    ((stripPrefix "TCP listening on " text).bind parseSocketAddr).map (fun addr => (false,addr)) <|>
      ((stripPrefix "TLS listening on " text).bind parseSocketAddr).map fun addr => (true,addr)
  | _ => none

/-- What was written at a level: nothing if it is off, no reason to fail, and the listeners so far. -/
structure Says (level : LevelFilter) (listeners : List (Bool × SocketAddr)) (c : Console) : Prop where
  filter : c.filter = level
  silent : level = .off → c.reports = []
  noReason : c.reports.filter Report.isReason = []
  listening : level.allows .info = true → c.reports.filterMap Report.listening = listeners

/-- A process that fails gives one reason, unless the level is off; a panic always gives its own. -/
def FailsAt (level : LevelFilter) : Exit → Console → Prop
  | .success,_ => False
  | .failure,c => (level = .off → c.reports = []) ∧
      (level ≠ .off → (c.reports.filter Report.isReason).length = 1)
  | .panicked,c => (c.reports.filter Report.isReason).length = 1

namespace Process

theorem allows_error {level : LevelFilter} (h : level ≠ .off) : level.allows .error = true := by
  cases level with
  | off => exact absurd rfl h
  | _ => rfl

variable {level : LevelFilter} {listeners : List (Bool × SocketAddr)} {α : Type}
  {Q : α → Console → Prop}

theorem says_log {l : Level} {text : Text} {heard : List (Bool × SocketAddr)}
    (hreason : (Report.logged l text).isReason = false)
    (hheard : (Report.logged l text).listening.toList = heard) :
    Triple (Says level listeners) (log l text) (fun _ => Says level (listeners ++ heard)) (FailsAt level) := by
  subst hheard
  intro c hc
  have hother : level.allows l = false → level.allows .info = true →
      (Report.logged l text).listening = none := by
    intro hl hinfo
    cases l with
    | info =>
      rw [hinfo] at hl
      cases hl
    | _ => rfl
  unfold log
  rw [hc.filter]
  cases hallows : level.allows l with
  | false =>
    refine ⟨hc.filter,hc.silent,hc.noReason,?_⟩
    intro hinfo
    rw [hc.listening hinfo,hother hallows hinfo]
    exact (List.append_nil _).symm
  | true =>
    refine ⟨hc.filter,?_,?_,?_⟩
    · rintro rfl
      cases l <;> cases hallows
    · change List.filter _ (c.reports ++ [_]) = []
      rw [List.filter_append,hc.noReason,List.filter_singleton,hreason]
      rfl
    · intro hinfo
      change List.filterMap _ (c.reports ++ [_]) = _
      rw [List.filterMap_append,hc.listening hinfo,List.filterMap_cons]
      cases (Report.logged l text).listening <;> rfl

theorem says_message {l : Level} {text : Text} (hreason : (Report.logged l text).isReason = false)
    (hheard : (Report.logged l text).listening = none) :
    Triple (Says level listeners) (log l text) (fun _ => Says level listeners) (FailsAt level) := by
  have hlog : Triple (Says level listeners) (log l text)
      (fun _ => Says level (listeners ++ Option.toList none)) (FailsAt level) :=
    says_log hreason (congrArg Option.toList hheard)
  simpa using hlog

theorem says_fail {text : Text} (hreason : (Report.logged .error text).isReason = true) :
    Triple (Says level listeners) (do
      log .error text
      throw .failure : Process α) Q (FailsAt level) := by
  intro c hc
  by_cases hoff : level = .off
  · have hskip : log .error text c = .ok () c := by
      unfold log
      rw [hc.filter,hoff]
      rfl
    rw [bind_ok hskip]
    exact ⟨hc.silent,fun hne => absurd hoff hne⟩
  · have hwrite : log .error text c = write (.logged .error text) c := by
      unfold log
      rw [hc.filter,allows_error hoff]
      rfl
    rw [bind_ok hwrite]
    refine ⟨fun h => absurd h hoff,fun _ => ?_⟩
    change (List.filter _ (c.reports ++ [_])).length = 1
    rw [List.filter_append,hc.noReason,List.filter_singleton,hreason]
    rfl

private theorem listening_addr {protocol : Text} {isTls : Bool} {addr : SocketAddr}
    (hprotocol : protocol = if isTls then "TLS" else "TCP") (haddr : addr.InRange) :
    (Report.logged .info (protocol ++ " listening on ".toList ++ addr.toText)).listening =
      some (isTls,addr) := by
  have hread := parseSocketAddr_toText haddr
  cases isTls with
  | false =>
    have hstrip : stripPrefix "TCP listening on " ("TCP".toList ++ " listening on ".toList ++ addr.toText) =
      some addr.toText := stripPrefix_eq_some.mpr rfl
    rw [hprotocol]
    unfold Report.listening
    simp only [Bool.false_eq_true,if_false]
    rw [hstrip,Option.bind_some,hread]
    rfl
  | true =>
    have hno : stripPrefix "TCP listening on " ("TLS".toList ++ " listening on ".toList ++ addr.toText) =
      none := rfl
    have hstrip : stripPrefix "TLS listening on " ("TLS".toList ++ " listening on ".toList ++ addr.toText) =
      some addr.toText := stripPrefix_eq_some.mpr rfl
    rw [hprotocol]
    unfold Report.listening
    simp only [if_true]
    rw [hno,hstrip,Option.bind_some,hread]
    rfl

theorem loadKeys_reports (host : Host) (config : Config) :
    Triple (Says level listeners) (loadKeys host config) (fun _ => Says level listeners) (FailsAt level) := by
  have hread : Triple (Says level listeners) (readKeys host config) (fun _ => Says level listeners)
      (FailsAt level) := by
    unfold readKeys
    cases readSecretKeys host.readToString config.secretKeyPath with
    | ok keys => exact .pure fun _ h => h
    | error e =>
      dsimp only
      split
      · exact says_fail rfl
      · exact (says_message rfl rfl).bind fun _ => .pure fun _ h => h
  apply hread.bind
  intro keys
  have hloaded : Triple (Says level listeners) (do
      log .info ("loaded ".toList ++ natText keys.length ++ " secret key(s) from '".toList ++
        config.secretKeyPath ++ "'".toList)
      return keys : Process (List SecretKey)) (fun _ => Says level listeners) (FailsAt level) :=
    (says_message rfl rfl).bind fun _ => .pure fun _ h => h
  dsimp only
  split
  · exact (says_message rfl rfl).bind fun _ => hloaded
  · exact hloaded

theorem configureTls_reports (host : Host) (config : Config) :
    Triple (Says level listeners) (configureTls host config) (fun _ => Says level listeners)
      (FailsAt level) := by
  unfold configureTls
  split
  · next cert key hcert hkey =>
    cases host.buildTlsConfig cert key config.tls13Only with
    | ok u => exact (says_message rfl rfl).bind fun _ => .pure fun _ h => h
    | error e => exact (says_message rfl rfl).bind fun _ => .pure fun _ h => h
  · exact (says_message rfl rfl).bind fun _ => .pure fun _ h => h

theorem bindListeners_reports (host : Host) {protocol : Text} (isTls : Bool) (bound : List SocketAddr)
    {addrs : List SocketAddr} (hprotocol : protocol = if isTls then "TLS" else "TCP")
    (haddrs : ∀ addr ∈ addrs, addr.InRange) :
    Triple (Says level listeners) (bindListeners host protocol bound addrs)
      (fun bound => Says level (listeners ++ bound.map fun addr => (isTls,addr))) (FailsAt level) := by
  induction addrs generalizing bound listeners with
  | nil => exact .pure fun c hc => by simpa using hc
  | cons addr addrs ih =>
    unfold bindListeners
    cases host.bind bound addr with
    | error e =>
      apply says_fail
      cases isTls <;> rw [hprotocol] <;> rfl
    | ok u =>
      have hheard := listening_addr hprotocol (haddrs addr List.mem_cons_self)
      apply (says_log rfl (congrArg Option.toList hheard)).bind
      intro _
      apply (ih (bound ++ [addr]) fun a ha => haddrs a (List.mem_cons_of_mem _ ha)).bind
      intro rest
      exact .pure fun c hc => by simpa using hc

theorem says_panic {message : Text} :
    Triple (Says level listeners) (panicWith message : Process α) Q (FailsAt level) := by
  intro c hc
  change (List.filter _ (c.reports ++ [_])).length = 1
  rw [List.filter_append,hc.noReason]
  rfl

theorem spawnWorkers_reports (host : Host) (numWorkers : Nat) :
    Triple (Says level listeners) (spawnWorkers host numWorkers) (fun _ => Says level listeners)
      (FailsAt level) := by
  have hthreads (ids : List Nat) : Triple (Says level listeners) (spawnThreads host ids)
      (fun _ => Says level listeners) (FailsAt level) := by
    induction ids with
    | nil => exact .pure fun _ h => h
    | cons id ids ih =>
      unfold spawnThreads
      cases host.spawn id with
      | ok u => exact ih
      | error e => exact says_panic
  unfold spawnWorkers
  cases host.reserve numWorkers with
  | ok u => exact (hthreads _).bind fun _ => .pure fun _ h => h
  | error e => exact says_panic

def Listeners (tcp tls : List SocketAddr) : List (Bool × SocketAddr) :=
  tcp.map (fun addr => (false,addr)) ++ tls.map fun addr => (true,addr)

theorem newServer_reports (host : Host) (config : Config) {tcpAddrs tlsAddrs : List SocketAddr}
    (htcp : ∀ addr ∈ tcpAddrs, addr.InRange) (htls : ∀ addr ∈ tlsAddrs, addr.InRange) :
    Triple (Says level []) (newServer host config tcpAddrs tlsAddrs)
      (fun r => Says level (Listeners r.2.1 r.2.2)) (FailsAt level) := by
  apply (loadKeys_reports host config).bind
  intro keys
  apply (configureTls_reports host config).bind
  intro tls
  apply (bindListeners_reports host false [] rfl htcp).bind
  intro tcp
  have haddrs : ∀ addr ∈ (if tls then tlsAddrs else []), addr.InRange := by
    split
    · exact htls
    · exact List.forall_mem_nil _
  apply (bindListeners_reports host true tcp rfl haddrs).bind
  intro tls
  exact (spawnWorkers_reports host config.numWorkers).bind fun _ => .pure fun _ h => h

def readyText (n : Nat) : Text := "ready for connections (".toList ++ natText n ++ " listener(s))".toList

private theorem says_ready (n : Nat) :
    Triple (Says level listeners) (log .info (readyText n)) (fun _ c => Says level listeners c ∧
      (level.allows .info = true → c.reports.getLast? = some (.logged .info (readyText n)))) (FailsAt level) := by
  have hsays : Triple (Says level listeners) (log .info (readyText n)) (fun _ => Says level listeners)
    (FailsAt level) := says_message rfl rfl
  intro c hc
  have hc' := hsays c hc
  cases hlog : log .info (readyText n) c with
  | ok u c' =>
    rw [hlog] at hc'
    refine ⟨hc',fun hinfo => ?_⟩
    unfold log at hlog
    rw [hc.filter,hinfo] at hlog
    cases hlog
    exact List.getLast?_concat
  | error e c' =>
    rw [hlog] at hc'
    exact hc'

theorem runServer_reports (host : Host) (server : Server) (tcp tls : List SocketAddr) :
    Triple (Says level listeners) (runServer host server tcp tls)
      (fun s c => Says level listeners c ∧ (level.allows .info = true →
        c.reports.getLast? = some (.logged .info (readyText s.listeners.length)))) (FailsAt level) := by
  unfold runServer
  dsimp only
  split
  · exact says_fail rfl
  cases host.poll with
  | error e => exact says_fail rfl
  | ok u =>
    apply (says_ready _).bind
    intro _
    refine .pure fun c hc => ⟨hc.1,?_⟩
    simpa [ServerState.start] using hc.2

/-- Whether the command line is accepted and turns logging off. -/
def Unlogged (parseLevel : Text → Except Text LevelFilter) (args : List Text) : Prop :=
  ∃ cli, parseCli parseLevel args = .ok cli ∧ cli.config.logLevel = .off

theorem init_reports (host : ProcessHost) (level : LevelFilter) (h : level ≠ .off) :
    Triple (fun c => c = console) (init host level) (fun _ => Says level []) (FailsAt level) := by
  rintro _ rfl
  unfold init
  cases host.tryInit with
  | ok u => exact ⟨rfl,fun _ => rfl,rfl,fun _ => rfl⟩
  | error e => exact ⟨fun hoff => absurd hoff h,fun _ => rfl⟩

theorem openSink_reports (host : ProcessHost) (target : Option SocketAddr) :
    Triple (Says level listeners) (openSink host target) (fun _ => Says level listeners) (FailsAt level) := by
  unfold openSink
  cases target with
  | none => exact .pure fun _ h => h
  | some target =>
    dsimp only
    cases host.newSink target with
    | ok u => exact says_message rfl rfl
    | error e => exact says_fail rfl

theorem prepare_reports (host : ProcessHost) (config : Config) :
    Triple (fun c => c = console) (prepare host config) (fun _ => Says config.logLevel [])
      (FailsAt config.logLevel) := by
  have hmessages : Triple (Says config.logLevel []) (do
      log .info ("starting rmbtd v".toList ++ host.version)
      log .info ("version string: ".toList ++ trim (greetingLine host.version))
      openSink host config.syslogTarget : Process Unit) (fun _ => Says config.logLevel [])
      (FailsAt config.logLevel) :=
    (says_message rfl rfl).bind fun _ => (says_message rfl rfl).bind fun _ =>
      openSink_reports host config.syslogTarget
  unfold prepare
  dsimp only
  split
  · next hlevel => exact (init_reports host config.logLevel hlevel).bind fun _ => hmessages
  · next hlevel =>
    rintro _ rfl
    exact hmessages console ⟨(not_not.mp hlevel).symm,fun _ => rfl,rfl,fun _ => rfl⟩

/-- The end of a start-up explains itself. -/
def Explained (unlogged : Prop) : EStateM.Result Exit Console ServerState → Prop
  | .ok _ c => c.reports.filter Report.isReason = []
  | .error .success c => c.reports = [.stdout]
  | .error .failure c => (unlogged → c.reports = []) ∧
      (¬unlogged → (c.reports.filter Report.isReason).length = 1)
  | .error .panicked c => (c.reports.filter Report.isReason).length = 1

private theorem explained_of_reports {unlogged : Prop} {m : Process ServerState}
    (h : Triple (fun c => c = console) m (fun _ c => c.reports.filter Report.isReason = []) (FailsAt level))
    (hlevel : level = .off ↔ unlogged) : Explained unlogged (m console) := by
  have hm := h console rfl
  cases hmc : m console with
  | ok s c' =>
    rw [hmc] at hm
    exact hm
  | error e c' =>
    rw [hmc] at hm
    cases e with
    | success => exact hm.elim
    | failure => exact ⟨fun hun => hm.1 (hlevel.mpr hun),fun hnot => hm.2 fun hoff => hnot (hlevel.mp hoff)⟩
    | panicked => exact hm

/-- However the command line and the host are, a process that fails to start gives exactly one
reason, apart from a notice that there is no TLS. The exception is a command line that is accepted and
turns logging off: then only a panic still gives its reason. -/
theorem run_explained (host : ProcessHost) (parseLevel : Text → Except Text LevelFilter)
    (args : List Text) : Explained (Unlogged parseLevel args) (run host parseLevel args console) := by
  have hrejected {e : CliExit} (hparse : parseCli parseLevel args = .error e) :
      ¬Unlogged parseLevel args := by
    rintro ⟨cli,hcli,-⟩
    rw [hparse] at hcli
    cases hcli
  cases hparse : parseCli parseLevel args with
  | error e =>
    have hnot := hrejected hparse
    unfold run readCli
    rw [hparse]
    cases e with
    | printed => exact rfl
    | error message => exact ⟨fun h => absurd h hnot,fun _ => rfl⟩
    | unknownOption option => exact ⟨fun h => absurd h hnot,fun _ => rfl⟩
  | ok cli =>
    have hcli := parseCli_inRange hparse
    have hlevel : cli.config.logLevel = .off ↔ Unlogged parseLevel args := by
      constructor
      · exact fun hoff => ⟨cli,hparse,hoff⟩
      · rintro ⟨cli',hcli',hoff⟩
        rw [hparse] at hcli'
        cases hcli'
        exact hoff
    have hstart : run host parseLevel args console = (do
        prepare host cli.config
        let (server,tcp,tls) ← newServer host.toHost cli.config cli.tcpAddrs cli.tlsAddrs
        runServer host.toHost server tcp tls : Process ServerState) console := by
      unfold run readCli
      rw [hparse]
      rfl
    rw [hstart]
    refine explained_of_reports ?_ hlevel
    apply (prepare_reports host cli.config).bind
    intro _
    apply (newServer_reports host.toHost cli.config hcli.tcpAddrs hcli.tlsAddrs).bind
    rintro ⟨server,tcp,tls⟩
    exact (runServer_reports host.toHost server tcp tls).mono (fun _ h => h) (fun _ _ h => h.1.noReason)
      fun _ _ h => h

theorem listeners_fst (tcp tls : List SocketAddr) :
    (Listeners tcp tls).map Prod.fst = tcp.map (fun _ => false) ++ tls.map fun _ => true := by
  simp [Listeners,Function.comp_def]

theorem runServer_ok {host : Host} {server : Server} {tcp tls : List SocketAddr} {s : ServerState}
    {c c' : Console} (h : runServer host server tcp tls c = .ok s c') :
    Listeners tcp tls ≠ [] ∧ s = .start server.senders.length ((Listeners tcp tls).map Prod.fst) := by
  have hvalue := (runServer_mirrors host server tcp tls).eq_ok h
  cases hserver : server.run host tcp tls with
  | error e =>
    rw [hserver] at hvalue
    cases hvalue
  | ok t =>
    rw [hserver] at hvalue
    cases hvalue
    obtain ⟨hne,-,rfl⟩ := run_eq_ok.mp hserver
    rw [listeners_fst]
    refine ⟨?_,rfl⟩
    unfold Listeners
    rw [ne_eq,List.append_eq_nil_iff,List.map_eq_nil_iff,List.map_eq_nil_iff,not_and_or]
    exact hne

theorem readCli_ok {parseLevel : Text → Except Text LevelFilter} {args : List Text} {cli : Cli}
    {c c' : Console} (h : readCli parseLevel args c = .ok cli c') :
    parseCli parseLevel args = .ok cli ∧ c' = c := by
  unfold readCli at h
  cases hparse : parseCli parseLevel args with
  | ok cli' =>
    rw [hparse] at h
    cases h
    exact ⟨rfl,rfl⟩
  | error e =>
    rw [hparse] at h
    cases e with
    | _ => cases h

/-- A process that serves has said at the level of information what it listens on: the addresses of
the command line in order, those for TLS only where there is a usable certificate. -/
theorem run_listens {host : ProcessHost} {parseLevel : Text → Except Text LevelFilter} {args : List Text}
    {s : ServerState} {c : Console} (h : run host parseLevel args console = .ok s c) :
    ∃ cli listeners, parseCli parseLevel args = .ok cli ∧ listeners = Listeners cli.tcpAddrs
        (if Server.configureTls host.toHost cli.config then cli.tlsAddrs else []) ∧ listeners ≠ [] ∧
      s = .start cli.config.numWorkers (listeners.map Prod.fst) ∧
      (cli.config.logLevel.allows .info = true → c.reports.filterMap Report.listening = listeners ∧
        c.reports.getLast? = some (.logged .info (readyText listeners.length))) := by
  obtain ⟨cli,c₁,hread,h⟩ := bind_eq_ok h
  obtain ⟨hparse,rfl⟩ := readCli_ok hread
  obtain ⟨_,c₂,hprepare,h⟩ := bind_eq_ok h
  obtain ⟨⟨server,tcp,tls⟩,c₃,hnew,h⟩ := bind_eq_ok h
  have hrun : runServer host.toHost server tcp tls c₃ = .ok s c := h
  obtain ⟨hsenders,htcp,htls⟩ := new_ok ((newServer_mirrors _ _ _ _).eq_ok hnew)
  obtain ⟨hne,hs⟩ := runServer_ok hrun
  have hcli := parseCli_inRange hparse
  have hprepared := prepare_reports host cli.config console rfl
  rw [hprepare] at hprepared
  have hmade := newServer_reports host.toHost cli.config hcli.tcpAddrs hcli.tlsAddrs c₂ hprepared
  rw [hnew] at hmade
  have hserved := runServer_reports host.toHost server tcp tls c₃ hmade
  rw [hrun] at hserved
  refine ⟨cli,Listeners tcp tls,hparse,by rw [htcp,htls],hne,?_,fun hinfo => ⟨hserved.1.listening hinfo,?_⟩⟩
  · rw [hs,hsenders,List.length_range]
  · have hlength : s.listeners.length = (Listeners tcp tls).length := by
      rw [hs]
      simp [ServerState.start]
    rw [← hlength]
    exact hserved.2 hinfo

end Process

private def goldenProcessHost : ProcessHost :=
  { workingHost with
    version := "1.0"
    tryInit := .ok ()
    newSink := fun _ => .ok () }

private def goldenArgs : List Text :=
  ["-l","8080","-L","[::1]:443","-l","127.0.0.1:9090","-c","cert.pem","-k","key.pem","-t","3","-log","info"]

private def goldenCli : Cli := ⟨{ Config.default with
    numWorkers := 3
    logLevel := .info
    certPath := some "cert.pem"
    keyPath := some "key.pem" },
  [.v4 Ipv4Addr.unspecified 8080,.v4 ⟨#v[127,0,0,1]⟩ 9090],
  [.v6 ⟨#v[0,0,0,0,0,0,0,0,0,0,0,0,0,0,0,1]⟩ 443 0]⟩

theorem run_listens_golden : ∃ s c, Process.run goldenProcessHost levelOf goldenArgs Process.console = .ok s c ∧
    s = .start 3 [false,false,true] ∧
    c.reports.filterMap Report.listening = [(false,.v4 Ipv4Addr.unspecified 8080),
      (false,.v4 ⟨#v[127,0,0,1]⟩ 9090),(true,.v6 ⟨#v[0,0,0,0,0,0,0,0,0,0,0,0,0,0,0,1]⟩ 443 0)] ∧
    c.reports.getLast? = some (.logged .info (Process.readyText 3)) := by
  have hends : (match Process.run goldenProcessHost levelOf goldenArgs Process.console with
    | .ok _ _ => true
    | .error _ _ => false) = true := by decide +kernel
  split at hends
  · next s c hrun =>
    have hcli : (parseCli levelOf goldenArgs).toOption = some goldenCli := by decide +kernel
    obtain ⟨cli,listeners,hparse,hlisteners,-,hs,hlog⟩ := Process.run_listens hrun
    rw [hparse] at hcli
    cases hcli
    have husable : Server.configureTls goldenProcessHost.toHost goldenCli.config = true := rfl
    rw [husable] at hlisteners
    subst hlisteners
    obtain ⟨hheard,hlast⟩ := hlog rfl
    exact ⟨s,c,hrun,hs,hheard,hlast⟩
  · cases hends

end Rmbtd
