import Rmbtd.Config.Parser
import Rmbtd.Server.AcceptLoop

/-!
# Start-up

`Server::new` and the part of `Server::run` before its loop. What the operating system and the
TLS library answer is given by a host.
-/

namespace Rmbtd

open Transition

structure Host where
  readToString : Text → Except Text Text
  /-- Certificate, key and whether TLS 1.2 is refused. -/
  buildTlsConfig : Text → Text → Bool → Except Text Unit
  /-- Binding an address, after others. -/
  bind : List SocketAddr → SocketAddr → Except Text Unit
  /-- Memory for this many channels; without it there is a message on the standard error. -/
  reserve : Nat → Except Text Unit
  spawn : Nat → Except Text Unit
  /-- Setting up `mio` for the listeners. -/
  poll : Except Text Unit

/-- The top-level server object; a worker is spawned for every sender. -/
structure Server where
  config : Config
  keys : List SecretKey
  tls : Bool
  senders : List Nat

inductive StartupError
  | failed (message : Text)
  | panicked
deriving DecidableEq

namespace Server

def bindListeners (host : Host) (protocol : Text) (bound : List SocketAddr) :
    List SocketAddr → Except StartupError (List SocketAddr)
  | [] => .ok []
  | addr::addrs => match host.bind bound addr with
    | .ok () => (bindListeners host protocol (bound ++ [addr]) addrs).map fun rest => addr::rest
    | .error e => .error (.failed (protocol ++ " bind on ".toList ++ addr.toText ++ " failed: ".toList ++ e))

def loadKeys (host : Host) (config : Config) : Except StartupError (List SecretKey) :=
  match readSecretKeys host.readToString config.secretKeyPath with
  | .ok keys => .ok keys
  | .error e => if config.checkToken then .error (.failed e) else .ok []

/-- Whether TLS is configured; a configuration that cannot be used disables it. -/
def configureTls (host : Host) (config : Config) : Bool :=
  match config.certPath, config.keyPath with
  | some cert, some key => (host.buildTlsConfig cert key config.tls13Only).toBool
  | _, _ => false

def spawnWorkers (host : Host) (numWorkers : Nat) : Except StartupError (List Nat) :=
  if (host.reserve numWorkers).toBool && (List.range numWorkers).all (fun id => (host.spawn id).toBool) then
    .ok (List.range numWorkers)
  else .error .panicked

/-- Bind listeners, load secret keys, and start worker threads. -/
def new (host : Host) (config : Config) (tcpAddrs tlsAddrs : List SocketAddr) :
    Except StartupError (Server × List SocketAddr × List SocketAddr) := do
  let keys ← loadKeys host config
  let tls := configureTls host config
  let tcpListeners ← bindListeners host "TCP" [] tcpAddrs
  let tlsListeners ← bindListeners host "TLS" tcpListeners (if tls then tlsAddrs else [])
  let senders ← spawnWorkers host config.numWorkers
  return (⟨config,keys,tls,senders⟩,tcpListeners,tlsListeners)

/-- The state in which `run` enters its loop. -/
def run (host : Host) (server : Server) (tcpListeners tlsListeners : List SocketAddr) :
    Except Text ServerState :=
  let listeners := tcpListeners.map (fun _ => false) ++ tlsListeners.map (fun _ => true)
  if listeners = [] then .error "no listeners bound"
  else match host.poll with
    | .ok () => .ok (.start server.senders.length listeners)
    | .error e => .error e

end Server

/-! ## Workers of a run -/

section Workers
variable {s t : ServerState} {ls : List Label}

theorem step_workers_length {l : Label} (h : s.step l = some t) :
    t.workers.length = s.workers.length := by
  rcases ServerState.step_frame h with ⟨hw,-⟩ | ⟨_,-,-,-,-,hw⟩ | ⟨u,addr,isTls,-,hw,-,-,-,rfl⟩ | ⟨i,hi⟩
  · rw [hw]
  · rw [hw,List.length_map]
  · rw [← hw]
    rcases u.dispatch_cases addr isTls with ⟨-,heq⟩ | ⟨w,-,-,⟨w',-,heq⟩ | ⟨-,heq⟩⟩
    · rw [heq]
    · rw [heq]
      exact List.length_set
    · rw [heq]
  · obtain ⟨w,w',-,⟨rfl,-⟩ | ⟨rfl,-⟩⟩ := ServerState.worker_cases hi
    · exact List.length_set
    · exact List.length_set

theorem run_workers_length {numWorkers : Nat} {isTls : List Bool}
    (run : Run ServerState.step (fun _ _ => True) (.start numWorkers isTls) ls t) :
    t.workers.length = numWorkers := by
  apply run.invariant (I := fun s => s.workers.length = numWorkers) List.length_replicate
  intro s l t _ hs hstep
  rw [step_workers_length hstep,hs]

private theorem accept_selected {numWorkers : Nat} {isTls : List Bool} (hpos : numWorkers ≠ 0)
    (run : Run ServerState.step (fun _ _ => True) (.start numWorkers isTls) ls s)
    (h : s.step (.accept true) = some t) :
    (∃ i < numWorkers, s.selected = some i) ∧ t.phase ≠ .panicked := by
  have hlength := run_workers_length run
  obtain ⟨i,events,tls,addr,backlog,event,hphase,-,rfl⟩ := ServerState.accept_cases h
  rw [if_pos rfl]
  rcases ServerState.dispatch_cases (s.updateListener i fun l => { l with backlog := l.backlog.tail })
      addr tls with ⟨hnil,-⟩ | ⟨w,hselected,-,hcases⟩
  · have hnil : s.workers = [] := hnil
    rw [hnil] at hlength
    exact absurd hlength.symm hpos
  · constructor
    · refine ⟨_,?_,hselected⟩
      rw [← hlength]
      have hworkers : 0 < s.workers.length := by omega
      exact Nat.mod_lt _ hworkers
    · have hdraining : s.phase ≠ .panicked := by
        rw [hphase]
        nofun
      rcases hcases with ⟨w',-,heq⟩ | ⟨-,heq⟩
      · rw [heq]
        exact hdraining
      · rw [heq]
        exact hdraining

private theorem first_connection_panics (isTls : List Bool) (hne : isTls ≠ []) (addr : SocketAddr) :
    ∃ ls s t, Run ServerState.step (fun _ _ => True) (.start 0 isTls) ls s ∧
      s.step (.accept true) = some t ∧ s.selected = none ∧ t.phase = .panicked := by
  cases isTls with
  | nil => exact absurd rfl hne
  | cons tls rest =>
    have hexec : exec ServerState.step (.start 0 (tls::rest)) [.arrive 0 addr,.wake [0]] = some
        { ServerState.start 0 (tls::rest) with
          phase := .draining 0 []
          listeners := ⟨tls,[addr],false⟩::(rest.map fun isTls => ⟨isTls,[],false⟩) } := by
      have hrest : (rest.map fun isTls => (⟨isTls,[],false⟩ : Listener)).mapIdx
          (fun i l => if i + 1 ∈ [0] then { l with event := false } else l) =
          rest.map fun isTls => ⟨isTls,[],false⟩ := by
        apply List.ext_getElem
        · simp
        · intro i _ _
          simp
      simpa [exec,ServerState.step,ServerState.start,ServerState.updateListener,ServerState.wake,
        LoopPhase.after,List.mapIdx_cons,eventCapacity] using hrest
    exact ⟨_,_,_,run_of_exec hexec,rfl,rfl,rfl⟩

end Workers

/-! ## What is started -/

private theorem bindListeners_ok {host : Host} {protocol : Text} {bound addrs listeners : List SocketAddr}
    (h : Server.bindListeners host protocol bound addrs = .ok listeners) : listeners = addrs := by
  induction addrs generalizing bound listeners with
  | nil =>
    cases h
    rfl
  | cons addr addrs ih =>
    unfold Server.bindListeners at h
    split at h
    · cases hrest : Server.bindListeners host protocol (bound ++ [addr]) addrs with
      | ok rest =>
        rw [hrest] at h
        cases h
        rw [ih hrest]
      | error e =>
        rw [hrest] at h
        cases h
    · cases h

private theorem except_bind_eq_ok {ε α β : Type} {x : Except ε α} {f : α → Except ε β} {b : β}
    (h : x >>= f = .ok b) : ∃ a, x = .ok a ∧ f a = .ok b := by
  cases x with
  | error e => cases h
  | ok a => exact ⟨a,rfl,h⟩

theorem new_ok {host : Host} {config : Config} {tcpAddrs tlsAddrs tcp tls : List SocketAddr}
    {server : Server} (h : Server.new host config tcpAddrs tlsAddrs = .ok (server,tcp,tls)) :
    server.senders = List.range config.numWorkers ∧ tcp = tcpAddrs ∧
      tls = if Server.configureTls host config then tlsAddrs else [] := by
  unfold Server.new at h
  obtain ⟨keys,-,h⟩ := except_bind_eq_ok h
  obtain ⟨tcp',htcp,h⟩ := except_bind_eq_ok h
  obtain ⟨tls',htls,h⟩ := except_bind_eq_ok h
  obtain ⟨senders,hsenders,h⟩ := except_bind_eq_ok h
  cases h
  refine ⟨?_,bindListeners_ok htcp,bindListeners_ok htls⟩
  unfold Server.spawnWorkers at hsenders
  split at hsenders
  · cases hsenders
    rfl
  · cases hsenders

/-! ## Configurations that survive -/

/-- The last worker count on the command line is zero. -/
def ZeroWorkers (args : List Text) : Prop :=
  ∃ value, lastValue .threads args = some value ∧ parseUsize value = .ok 0

/-- A certificate and a key are given and can be used. -/
def TlsUsable (host : Host) (args : List Text) : Prop :=
  ∃ cert key, lastValue .cert args = some cert ∧ lastValue .key args = some key ∧
    host.buildTlsConfig cert key (hasFlag .tls13Only args) = .ok ()

/-- The server gets to its accept loop: there is a listener and `mio` can be set up. -/
def Listens (host : Host) (args : List Text) : Prop :=
  (lastValue .tcp args ≠ none ∨ TlsUsable host args) ∧ host.poll = .ok ()

section Survives
variable {parseLevel : Text → Except Text LevelFilter} {host : Host} {args : List Text} {cli : Cli}

private theorem zeroWorkers_iff (hparse : parseCli parseLevel args = .ok cli) :
    cli.config.numWorkers = 0 ↔ ZeroWorkers args := by
  have hnum := parseCli_numWorkers hparse
  unfold ZeroWorkers
  cases hlast : lastValue .threads args with
  | none =>
    rw [hlast] at hnum
    have hdefault : cli.config.numWorkers = 200 := Except.ok.inj hnum
    simp [hdefault]
  | some value =>
    rw [hlast,Option.map_some,Option.getD_some] at hnum
    simp [← hnum]

private theorem configureTls_iff (hparse : parseCli parseLevel args = .ok cli) :
    Server.configureTls host cli.config = true ↔ TlsUsable host args := by
  unfold Server.configureTls TlsUsable
  rw [parseCli_certPath hparse,parseCli_keyPath hparse,parseCli_tls13Only hparse]
  cases hcert : lastValue .cert args with
  | none => simp
  | some cert =>
    cases hkey : lastValue .key args with
    | none => simp
    | some key =>
      cases hbuild : host.buildTlsConfig cert key (hasFlag .tls13Only args) with
      | ok u => simp [Except.toBool,hbuild]
      | error e => simp [Except.toBool,hbuild]

private theorem listeners_ne_nil {tcp tls : List SocketAddr} :
    tcp.map (fun _ => false) ++ tls.map (fun _ => true) ≠ [] ↔ tcp ≠ [] ∨ tls ≠ [] := by
  rw [ne_eq,List.append_eq_nil_iff,List.map_eq_nil_iff,List.map_eq_nil_iff,not_and_or]

/-- When the accept loop is entered, and in which state. -/
theorem run_eq_ok {server : Server} {tcp tls : List SocketAddr} {s : ServerState} :
    server.run host tcp tls = .ok s ↔ (tcp ≠ [] ∨ tls ≠ []) ∧ host.poll = .ok () ∧
      s = .start server.senders.length (tcp.map (fun _ => false) ++ tls.map fun _ => true) := by
  unfold Server.run
  dsimp only
  rw [← listeners_ne_nil]
  generalize tcp.map (fun _ => false) ++ tls.map (fun _ => true) = isTls
  cases isTls with
  | nil => simp
  | cons tls rest =>
    cases hpoll : host.poll with
    | error e => simp
    | ok u => simp [eq_comm]

private theorem exists_run_iff (hparse : parseCli parseLevel args = .ok cli) {server : Server}
    {tcp tls : List SocketAddr}
    (hnew : Server.new host cli.config cli.tcpAddrs cli.tlsAddrs = .ok (server,tcp,tls)) :
    (∃ s, server.run host tcp tls = .ok s) ↔ Listens host args := by
  obtain ⟨-,rfl,htls⟩ := new_ok hnew
  have htls' : tls ≠ [] ↔ TlsUsable host args := by
    rw [htls,← configureTls_iff hparse]
    split
    · next h => simp [h,parseCli_tlsAddrs hparse]
    · next h => simp [h]
  unfold Listens
  rw [← htls',ne_eq (lastValue .tcp args),← parseCli_tcpAddrs hparse]
  constructor
  · rintro ⟨s,hs⟩
    obtain ⟨hne,hpoll,-⟩ := run_eq_ok.mp hs
    exact ⟨hne,hpoll⟩
  · rintro ⟨hne,hpoll⟩
    exact ⟨_,run_eq_ok.mpr ⟨hne,hpoll,rfl⟩⟩

/-- For every command line with which the server starts, and every sequence of accepted connections:
the selection of a worker is defined and below the number of workers, and the loop goes on, if and
only if the last worker count given is not zero or the server does not listen. -/
theorem dispatch_survives_iff {server : Server} {tcp tls : List SocketAddr}
    (hparse : parseCli parseLevel args = .ok cli)
    (hnew : Server.new host cli.config cli.tcpAddrs cli.tlsAddrs = .ok (server,tcp,tls)) :
    (∀ s, server.run host tcp tls = .ok s → ∀ ls t u, Run ServerState.step (fun _ _ => True) s ls t →
      t.step (.accept true) = some u →
        (∃ i < server.senders.length, t.selected = some i) ∧ u.phase ≠ .panicked) ↔
      (ZeroWorkers args → ¬Listens host args) := by
  have hlength : server.senders.length = cli.config.numWorkers := by
    rw [(new_ok hnew).1,List.length_range]
  rw [← zeroWorkers_iff hparse,← exists_run_iff hparse hnew,← hlength]
  constructor
  · rintro hall hzero ⟨s,hs⟩
    obtain ⟨hne,-,hstart⟩ := run_eq_ok.mp hs
    rw [hzero] at hstart
    obtain ⟨ls,t,u,hrun,hstep,-,hpanicked⟩ := first_connection_panics
      _ (listeners_ne_nil.mpr hne) anyPeer
    rw [← hstart] at hrun
    exact (hall s hs ls t u hrun hstep).2 hpanicked
  · intro hcond s hs ls t u hrun hstep
    have hpos : server.senders.length ≠ 0 := fun hzero => hcond hzero ⟨s,hs⟩
    obtain ⟨-,-,rfl⟩ := run_eq_ok.mp hs
    exact accept_selected hpos hrun hstep

end Survives

/-- A host on which everything works; its key file holds one key. -/
def workingHost : Host where
  readToString := fun _ => .ok "mysecretkey1 production\n"
  buildTlsConfig := fun _ _ _ => .ok ()
  bind := fun _ _ => .ok ()
  reserve := fun _ => .ok ()
  spawn := fun _ => .ok ()
  poll := .ok ()

def startServer (args : List Text) :
    Option (Cli × Server × List SocketAddr × List SocketAddr) := do
  let cli ← (parseCli (fun _ => .error []) args).toOption
  let server ← (Server.new workingHost cli.config cli.tcpAddrs cli.tlsAddrs).toOption
  return (cli,server)

private theorem startServer_some {args : List Text} (h : (startServer args).isSome) :
    ∃ cli server tcp tls, parseCli (fun _ => .error []) args = .ok cli ∧
      Server.new workingHost cli.config cli.tcpAddrs cli.tlsAddrs = .ok (server,tcp,tls) := by
  unfold startServer at h
  cases hparse : parseCli (fun _ => .error []) args with
  | error e =>
    rw [hparse] at h
    cases h
  | ok cli =>
    cases hnew : Server.new workingHost cli.config cli.tcpAddrs cli.tlsAddrs with
    | error e =>
      rw [hparse] at h
      simp [Except.toOption,hnew] at h
    | ok server => exact ⟨cli,server.1,server.2.1,server.2.2,rfl,hnew⟩

theorem dispatch_survives_iff_golden :
    ∃ cli server tcp tls, parseCli (fun _ => .error []) ["-l","8080","-t","2"] = .ok cli ∧
      Server.new workingHost cli.config cli.tcpAddrs cli.tlsAddrs = .ok (server,tcp,tls) ∧
      ∀ s, server.run workingHost tcp tls = .ok s → ∀ ls t u,
        Run ServerState.step (fun _ _ => True) s ls t → t.step (.accept true) = some u →
        (∃ i < server.senders.length, t.selected = some i) ∧ u.phase ≠ .panicked := by
  obtain ⟨cli,server,tcp,tls,hparse,hnew⟩ := @startServer_some ["-l","8080","-t","2"] (by decide)
  refine ⟨cli,server,tcp,tls,hparse,hnew,(dispatch_survives_iff hparse hnew).mpr ?_⟩
  rintro ⟨value,hvalue,hzero⟩
  have hlast : lastValue .threads ["-l","8080","-t","2"] = some "2".toList := by decide
  rw [hlast] at hvalue
  cases hvalue
  exact absurd hzero (by decide)

/-- Without workers the first connection makes the accept loop panic. -/
theorem dispatch_panics :
    ∃ cli server tcp tls s ls t u,
      parseCli (fun _ => .error []) ["-l","8080","-t","0"] = .ok cli ∧
      Server.new workingHost cli.config cli.tcpAddrs cli.tlsAddrs = .ok (server,tcp,tls) ∧
      server.run workingHost tcp tls = .ok s ∧ Run ServerState.step (fun _ _ => True) s ls t ∧
      t.step (.accept true) = some u ∧ t.selected = none ∧ u.phase = .panicked := by
  obtain ⟨cli,server,tcp,tls,hparse,hnew⟩ := @startServer_some ["-l","8080","-t","0"] (by decide)
  have hzero : cli.config.numWorkers = 0 := (zeroWorkers_iff hparse).mpr ⟨"0",by decide,by decide⟩
  have hlength : server.senders.length = 0 := by rw [(new_ok hnew).1,List.length_range,hzero]
  have htcp : lastValue .tcp ["-l","8080","-t","0"] ≠ none := by decide
  obtain ⟨s,hs⟩ := (exists_run_iff hparse hnew).mpr ⟨Or.inl htcp,rfl⟩
  obtain ⟨hne,-,hstart⟩ := run_eq_ok.mp hs
  rw [hlength] at hstart
  obtain ⟨ls,t,u,hrun,hstep,hselected,hpanicked⟩ :=
    first_connection_panics _ (listeners_ne_nil.mpr hne) anyPeer
  rw [← hstart] at hrun
  exact ⟨cli,server,tcp,tls,s,ls,t,u,hparse,hnew,hs,hrun,hstep,hselected,hpanicked⟩

end Rmbtd
