import Rmbtd.Config.Parser
import Rmbtd.Library.Commuting

/-!
# Command lines

What a command line can say. The configurations that come from a command line are those with ports and a
worker count in range and an address for TLS, and each of them can be written as one. Only the order of the
occurrences of one option matters.
-/

namespace Rmbtd

open Commuting

/-! ## Writing options -/

def ValueOption.name : ValueOption → Text
  | .tcp => "-l"
  | .tls => "-L"
  | .cert => "-c"
  | .key => "-k"
  | .secretKeys => "-S"
  | .threads => "-t"
  | .logLevel => "-log"
  | .syslog => "--syslog"

def Flag.name : Flag → Text
  | .tls13Only => "--tls13-only"
  | .hsts => "--hsts"
  | .start => "-s"
  | .noTokenCheck => "--no-token-check"
  | .v2Only => "--v2-only"
  | .logFullIp => "--log-full-ip"

theorem lookup_valueOption (option : ValueOption) : cliOptions.lookup option.name = some (.value option) := by
  cases option <;> decide

theorem lookup_flag (flag : Flag) : cliOptions.lookup flag.name = some (.flag flag) := by
  cases flag <;> decide

def Setting.toArgs : Setting → List Text
  | .value option v => [option.name,v]
  | .flag f => [f.name]

section
variable (parseLevel : Text → Except Text LevelFilter)

def Setting.apply (cli : Cli) : Setting → Except Text Cli
  | .value option v => option.set parseLevel cli v
  | .flag f => .ok (f.set cli)

/-- A setting on top of what was set before, if there was no error. -/
def Setting.step (cli : Option Cli) (s : Setting) : Option Cli :=
  cli.bind fun cli => (s.apply parseLevel cli).toOption

private theorem foldl_step_none (ss : List Setting) : ss.foldl (Setting.step parseLevel) none = none := by
  induction ss with
  | nil => rfl
  | cons s ss ih => exact ih

theorem parseArgs_settings (cli : Cli) (ss : List Setting) :
    (parseArgs parseLevel cli (ss.flatMap Setting.toArgs)).toOption =
      ss.foldl (Setting.step parseLevel) (some cli) := by
  induction ss generalizing cli with
  | nil => rfl
  | cons s ss ih =>
    cases s with
    | value option value =>
      rw [List.flatMap_cons,Setting.toArgs,List.cons_append,List.cons_append,List.nil_append,parseArgs,
        lookup_valueOption,List.foldl_cons]
      dsimp only
      cases hset : option.set parseLevel cli value with
      | ok cli' =>
        have hstep : Setting.step parseLevel (some cli) (.value option value) = some cli' := by
          rw [Setting.step,Option.bind_some,Setting.apply,hset]
          rfl
        rw [hstep]
        exact ih cli'
      | error message =>
        have hstep : Setting.step parseLevel (some cli) (.value option value) = none := by
          rw [Setting.step,Option.bind_some,Setting.apply,hset]
          rfl
        rw [hstep,foldl_step_none]
        rfl
    | flag flag =>
      rw [List.flatMap_cons,Setting.toArgs,List.cons_append,List.nil_append,parseArgs,lookup_flag]
      exact ih (flag.set cli)

/-! ## Order -/

def Setting.option : Setting → ValueOption ⊕ Flag
  | .value option _ => .inl option
  | .flag f => .inr f

/-- What a setting changes, once its value has been read. -/
inductive Update
  | tcp (addr : SocketAddr)
  | tls (addr : SocketAddr)
  | cert (path : Text)
  | key (path : Text)
  | secretKeys (path : Text)
  | threads (n : Nat)
  | logLevel (level : LevelFilter)
  | syslog (addr : SocketAddr)
  | flag (flag : Flag)

def Update.option : Update → ValueOption ⊕ Flag
  | .tcp _ => .inl .tcp
  | .tls _ => .inl .tls
  | .cert _ => .inl .cert
  | .key _ => .inl .key
  | .secretKeys _ => .inl .secretKeys
  | .threads _ => .inl .threads
  | .logLevel _ => .inl .logLevel
  | .syslog _ => .inl .syslog
  | .flag f => .inr f

def Update.apply (cli : Cli) : Update → Cli
  | .tcp addr => { cli with tcpAddrs := cli.tcpAddrs ++ [addr] }
  | .tls addr => { cli with tlsAddrs := cli.tlsAddrs ++ [addr] }
  | .cert path => { cli with config.certPath := some path }
  | .key path => { cli with config.keyPath := some path }
  | .secretKeys path => { cli with config.secretKeyPath := path }
  | .threads n => { cli with config.numWorkers := n }
  | .logLevel level => { cli with config.logLevel := level }
  | .syslog addr => { cli with config.syslogTarget := some addr }
  | .flag f => f.set cli

def Setting.update : Setting → Option Update
  | .value .tcp v => (parseAddr v).toOption.map .tcp
  | .value .tls v => (parseAddr v).toOption.map .tls
  | .value .cert v => some (.cert v)
  | .value .key v => some (.key v)
  | .value .secretKeys v => some (.secretKeys v)
  | .value .threads v => (parseUsize v).toOption.map .threads
  | .value .logLevel v => (parseLevel v).toOption.map .logLevel
  | .value .syslog v => (parseSyslogTarget v).toOption.map .syslog
  | .flag f => some (.flag f)

private theorem update_option {s : Setting} {u : Update} (h : s.update parseLevel = some u) :
    u.option = s.option := by
  unfold Setting.update at h
  split at h
  all_goals first
    | (obtain ⟨_,-,rfl⟩ := Option.map_eq_some_iff.mp h; rfl)
    | (cases h; rfl)

private theorem step_eq (cli : Option Cli) (s : Setting) : Setting.step parseLevel cli s =
    cli.bind fun cli => (s.update parseLevel).map fun u => u.apply cli := by
  have hmap {α : Type} (x : Except Text α) (g : α → Update) (cli : Cli) :
      (x.map fun a => (g a).apply cli).toOption = (x.toOption.map g).map fun u => u.apply cli := by
    cases x <;> rfl
  cases cli with
  | none => rfl
  | some cli =>
    rw [Setting.step,Option.bind_some,Option.bind_some]
    cases s with
    | value option value =>
      cases option with
      | tcp => exact hmap _ Update.tcp cli
      | tls => exact hmap _ Update.tls cli
      | cert => rfl
      | key => rfl
      | secretKeys => rfl
      | threads => exact hmap _ Update.threads cli
      | logLevel => exact hmap _ Update.logLevel cli
      | syslog => exact hmap _ Update.syslog cli
    | flag flag => rfl

private theorem Update.apply_comm {u v : Update} (h : u.option ≠ v.option) (cli : Cli) :
    v.apply (u.apply cli) = u.apply (v.apply cli) := by
  have hflag (flag : Flag) (w : Update) : w.apply (flag.set cli) = flag.set (w.apply cli) := by
    cases w with
    | flag flag' => cases flag <;> cases flag' <;> rfl
    | _ => cases flag <;> rfl
  cases u with
  | flag flag => exact hflag flag v
  | _ =>
    cases v with
    | flag flag => exact (hflag flag _).symm
    | _ => first | rfl | exact absurd rfl h

private theorem step_commutes : Commutes (Setting.step parseLevel) Setting.option := by
  intro cli a b hab
  simp only [step_eq]
  cases cli with
  | none => rfl
  | some cli =>
    cases ha : a.update parseLevel with
    | none => cases b.update parseLevel <;> rfl
    | some u =>
      cases hb : b.update parseLevel with
      | none => rfl
      | some v =>
        have huv : u.option ≠ v.option := by
          rw [update_option parseLevel ha,update_option parseLevel hb]
          exact hab
        simp only [Option.bind_some,Option.map_some,Update.apply_comm huv]

variable {parseLevel} {args : List Text} {cli : Cli}

private theorem parseArgs_ok_settings {cli' : Cli} (h : parseArgs parseLevel cli args = .ok cli') :
    (settings args).foldl (Setting.step parseLevel) (some cli) = some cli' := by
  induction cli, args using parseArgs.induct parseLevel with
  | case1 cli =>
    rw [parseArgs] at h
    cases h
    rfl
  | case2 cli arg o hlookup =>
    rw [parseArgs.eq_def] at h
    simp only [hlookup] at h
    cases h
    simp [settings,hlookup]
  | case3 cli arg o hlookup value args cli₁ hset ih =>
    rw [parseArgs.eq_def] at h
    simp only [hlookup,hset] at h
    have hstep : Setting.step parseLevel (some cli) (.value o value) = some cli₁ := by
      rw [Setting.step,Option.bind_some,Setting.apply,hset]
      rfl
    rw [settings.eq_def]
    simp only [hlookup]
    rw [List.foldl_cons,hstep]
    exact ih h
  | case4 cli arg o hlookup value args message hset =>
    rw [parseArgs.eq_def] at h
    simp only [hlookup,hset] at h
    cases h
  | case5 cli arg args flag hlookup ih =>
    rw [parseArgs.eq_def] at h
    simp only [hlookup] at h
    rw [settings.eq_def]
    simp only [hlookup]
    exact ih h
  | _ =>
    rw [parseArgs.eq_def] at h
    simp only [*] at h
    cases h

private theorem toOption_eq_some {ε α : Type} {x : Except ε α} {a : α} : x.toOption = some a ↔ x = .ok a := by
  cases x <;> simp [Except.toOption]

/-- The settings of an accepted command line can be given in any other order that keeps the values of each
option in order. -/
theorem parseCli_order (h : parseCli parseLevel args = .ok cli) {ss : List Setting}
    (hss : ∀ option, withKey Setting.option option (settings args) = withKey Setting.option option ss) :
    parseCli parseLevel (ss.flatMap Setting.toArgs) = .ok cli := by
  unfold parseCli at h ⊢
  cases hargs : parseArgs parseLevel ⟨Config.default,[],[]⟩ args with
  | error e =>
    rw [hargs] at h
    cases h
  | ok cli' =>
    have hsame : (parseArgs parseLevel ⟨Config.default,[],[]⟩ (ss.flatMap Setting.toArgs)).toOption =
        some cli' := by
      rw [parseArgs_settings,← foldl_eq (step_commutes parseLevel) hss]
      exact parseArgs_ok_settings hargs
    rw [toOption_eq_some.mp hsame,← hargs]
    exact h

/-! ## What a command line can say -/

/-- Ports are `u16`, scopes `u32` and the number of workers is a `usize`. -/
structure Cli.InRange (cli : Cli) : Prop where
  tcpAddrs : ∀ addr ∈ cli.tcpAddrs, addr.InRange
  tlsAddrs : ∀ addr ∈ cli.tlsAddrs, addr.InRange
  syslogTarget : ∀ addr ∈ cli.config.syslogTarget, addr.InRange
  workers : cli.config.numWorkers < 2^64

def Update.InRange : Update → Prop
  | .tcp addr => addr.InRange
  | .tls addr => addr.InRange
  | .threads n => n < 2^64
  | .syslog addr => addr.InRange
  | _ => True

private theorem parsePort_lt {s : Text} {port : Nat} (h : parsePort s = some port) : port < 65536 :=
  parseUnsigned_lt h

private theorem parseAddr_inRange {s : Text} {addr : SocketAddr} (h : parseAddr s = .ok addr) :
    addr.InRange := by
  unfold parseAddr at h
  dsimp only at h
  split at h
  · next hread =>
    cases h
    simp only [Option.orElse_eq_orElse,Option.orElse_eq_or,Option.or_eq_some_iff] at hread
    rcases hread with hread | ⟨-,hread | ⟨-,hread | ⟨-,hread⟩⟩⟩
    · exact parseSocketAddr_inRange hread
    · obtain ⟨_,-,hread⟩ := Option.bind_eq_some_iff.mp hread
      obtain ⟨_,-,hread⟩ := Option.bind_eq_some_iff.mp hread
      obtain ⟨_,-,hread⟩ := Option.bind_eq_some_iff.mp hread
      obtain ⟨ip,-,hread⟩ := Option.bind_eq_some_iff.mp hread
      obtain ⟨port,hport,hread⟩ := Option.bind_eq_some_iff.mp hread
      cases hread
      exact SocketAddr.new_inRange (parsePort_lt hport)
    · obtain ⟨_,-,hread⟩ := Option.bind_eq_some_iff.mp hread
      obtain ⟨ip,-,hread⟩ := Option.bind_eq_some_iff.mp hread
      obtain ⟨port,hport,hread⟩ := Option.bind_eq_some_iff.mp hread
      cases hread
      exact SocketAddr.new_inRange (parsePort_lt hport)
    · obtain ⟨port,hport,hread⟩ := Option.bind_eq_some_iff.mp hread
      cases hread
      exact SocketAddr.new_inRange (parsePort_lt hport)
  · cases h

private theorem parseSyslogTarget_inRange {s : Text} {addr : SocketAddr} (h : parseSyslogTarget s = .ok addr) :
    addr.InRange := by
  unfold parseSyslogTarget at h
  dsimp only at h
  split at h
  · next hread =>
    cases h
    simp only [Option.orElse_eq_orElse,Option.orElse_eq_or,Option.or_eq_some_iff] at hread
    rcases hread with hread | ⟨-,hread⟩
    · exact parseSocketAddr_inRange hread
    · obtain ⟨ip,-,rfl⟩ := Option.map_eq_some_iff.mp hread
      exact SocketAddr.new_inRange (by decide)
  · cases h

private theorem parseUsize_lt {s : Text} {n : Nat} (h : parseUsize s = .ok n) : n < 2^64 := by
  unfold parseUsize at h
  split at h
  · next hread =>
    cases h
    exact parseUnsigned_lt hread
  · cases h

private theorem update_inRange {s : Setting} {u : Update} (h : s.update parseLevel = some u) : u.InRange := by
  unfold Setting.update at h
  split at h
  · obtain ⟨addr,haddr,rfl⟩ := Option.map_eq_some_iff.mp h
    exact parseAddr_inRange (toOption_eq_some.mp haddr)
  · obtain ⟨addr,haddr,rfl⟩ := Option.map_eq_some_iff.mp h
    exact parseAddr_inRange (toOption_eq_some.mp haddr)
  · cases h
    exact trivial
  · cases h
    exact trivial
  · cases h
    exact trivial
  · obtain ⟨n,hn,rfl⟩ := Option.map_eq_some_iff.mp h
    exact parseUsize_lt (toOption_eq_some.mp hn)
  · obtain ⟨level,-,rfl⟩ := Option.map_eq_some_iff.mp h
    exact trivial
  · obtain ⟨addr,haddr,rfl⟩ := Option.map_eq_some_iff.mp h
    exact parseSyslogTarget_inRange (toOption_eq_some.mp haddr)
  · cases h
    exact trivial

private theorem apply_inRange {u : Update} (hcli : cli.InRange) (hu : u.InRange) : (u.apply cli).InRange := by
  obtain ⟨htcp,htls,hsyslog,hworkers⟩ := hcli
  have happend {addrs : List SocketAddr} (haddrs : ∀ addr ∈ addrs, addr.InRange) {addr : SocketAddr}
      (haddr : addr.InRange) : ∀ a ∈ addrs ++ [addr], a.InRange := by
    intro a ha
    rcases List.mem_append.mp ha with ha | ha
    · exact haddrs a ha
    · rwa [List.mem_singleton.mp ha]
  cases u with
  | tcp addr => exact ⟨happend htcp hu,htls,hsyslog,hworkers⟩
  | tls addr => exact ⟨htcp,happend htls hu,hsyslog,hworkers⟩
  | threads n => exact ⟨htcp,htls,hsyslog,hu⟩
  | syslog addr => exact ⟨htcp,htls,by rintro _ ⟨⟩; exact hu,hworkers⟩
  | flag flag => cases flag <;> exact ⟨htcp,htls,hsyslog,hworkers⟩
  | _ => exact ⟨htcp,htls,hsyslog,hworkers⟩

private theorem foldl_inRange {ss : List Setting} {cli' : Cli} (hcli : cli.InRange)
    (h : ss.foldl (Setting.step parseLevel) (some cli) = some cli') : cli'.InRange := by
  induction ss generalizing cli with
  | nil =>
    cases h
    exact hcli
  | cons s ss ih =>
    rw [List.foldl_cons,step_eq,Option.bind_some] at h
    cases hu : s.update parseLevel with
    | none =>
      rw [hu,Option.map_none,foldl_step_none] at h
      cases h
    | some u =>
      rw [hu,Option.map_some] at h
      exact ih (apply_inRange hcli (update_inRange hu)) h

theorem parseCli_inRange (h : parseCli parseLevel args = .ok cli) : cli.InRange := by
  unfold parseCli at h
  cases hargs : parseArgs parseLevel ⟨Config.default,[],[]⟩ args with
  | error e =>
    rw [hargs] at h
    cases h
  | ok cli' =>
    rw [hargs] at h
    cases h
    have hdefault : (⟨Config.default,[],[]⟩ : Cli).InRange :=
      ⟨by simp,by simp,by simp [Config.default],by decide⟩
    have hcli' := foldl_inRange hdefault (parseArgs_ok_settings hargs)
    unfold Cli.withDefaultListeners
    split
    · have hport (ip : IpAddr) : (SocketAddr.new ip defaultTlsPort).InRange :=
        SocketAddr.new_inRange (by decide)
      refine ⟨hcli'.tcpAddrs,?_,hcli'.syslogTarget,hcli'.workers⟩
      simp [hport]
    · exact hcli'

/-! ## Writing a configuration -/

def LevelFilter.text : LevelFilter → Text
  | .off => "off"
  | .error => "error"
  | .warn => "warn"
  | .info => "info"
  | .debug => "debug"
  | .trace => "trace"

/-- Settings that make the configuration, one after the other. -/
def Cli.toSettings (cli : Cli) : List Setting :=
  let config := cli.config
  let flagIf (b : Bool) (flag : Flag) : List Setting := if b then [.flag flag] else []
  cli.tcpAddrs.map (fun addr => .value .tcp addr.toText) ++
    cli.tlsAddrs.map (fun addr => .value .tls addr.toText) ++
    config.certPath.toList.map (.value .cert) ++ config.keyPath.toList.map (.value .key) ++
    config.syslogTarget.toList.map (fun addr => .value .syslog addr.toText) ++
    [.value .secretKeys config.secretKeyPath,.value .threads (natText config.numWorkers),
      .value .logLevel config.logLevel.text] ++
    flagIf config.tls13Only .tls13Only ++ flagIf config.hsts .hsts ++ flagIf (!config.checkToken) .noTokenCheck ++
    flagIf config.v2Only .v2Only ++ flagIf config.logFullIp .logFullIp

/-- The arguments that give the configuration. -/
def Cli.toArgs (cli : Cli) : List Text := cli.toSettings.flatMap Setting.toArgs

private def Cli.updates (cli : Cli) : List Update :=
  let config := cli.config
  let flagIf (b : Bool) (flag : Flag) : List Update := if b then [.flag flag] else []
  cli.tcpAddrs.map .tcp ++ cli.tlsAddrs.map .tls ++ config.certPath.toList.map .cert ++
    config.keyPath.toList.map .key ++ config.syslogTarget.toList.map .syslog ++
    [.secretKeys config.secretKeyPath,.threads config.numWorkers,.logLevel config.logLevel] ++
    flagIf config.tls13Only .tls13Only ++ flagIf config.hsts .hsts ++ flagIf (!config.checkToken) .noTokenCheck ++
    flagIf config.v2Only .v2Only ++ flagIf config.logFullIp .logFullIp

private theorem updates_apply (cli : Cli) : cli.updates.foldl Update.apply ⟨Config.default,[],[]⟩ = cli := by
  have htcp (addrs : List SocketAddr) (c : Cli) : (addrs.map Update.tcp).foldl Update.apply c =
      { c with tcpAddrs := c.tcpAddrs ++ addrs } := by
    induction addrs generalizing c with
    | nil => simp
    | cons addr addrs ih => simp [ih,Update.apply]
  have htls (addrs : List SocketAddr) (c : Cli) : (addrs.map Update.tls).foldl Update.apply c =
      { c with tlsAddrs := c.tlsAddrs ++ addrs } := by
    induction addrs generalizing c with
    | nil => simp
    | cons addr addrs ih => simp [ih,Update.apply]
  have hcert (path : Option Text) (c : Cli) : (path.toList.map Update.cert).foldl Update.apply c =
      { c with config.certPath := path.or c.config.certPath } := by cases path <;> rfl
  have hkey (path : Option Text) (c : Cli) : (path.toList.map Update.key).foldl Update.apply c =
      { c with config.keyPath := path.or c.config.keyPath } := by cases path <;> rfl
  have hsyslog (addr : Option SocketAddr) (c : Cli) : (addr.toList.map Update.syslog).foldl Update.apply c =
      { c with config.syslogTarget := addr.or c.config.syslogTarget } := by cases addr <;> rfl
  have hflag (b : Bool) (flag : Flag) (c : Cli) : (if b then [Update.flag flag] else []).foldl Update.apply c =
      if b then flag.set c else c := by cases b <;> rfl
  obtain ⟨⟨cert,key,tls13Only,hsts,workers,secretKeys,checkToken,v2Only,level,syslog,logFullIp⟩,tcp,tls⟩ := cli
  unfold Cli.updates
  simp only [List.foldl_append,htcp,htls,hcert,hkey,hsyslog,hflag,List.foldl_cons,List.foldl_nil,Update.apply,
    Config.default,Option.or_none,List.nil_append]
  cases tls13Only <;> cases hsts <;> cases checkToken <;> cases v2Only <;> cases logFullIp <;> rfl

private theorem foldl_step_updates {ss : List Setting} {us : List Update}
    (h : ss.map (Setting.update parseLevel) = us.map some) (cli : Cli) :
    ss.foldl (Setting.step parseLevel) (some cli) = some (us.foldl Update.apply cli) := by
  induction ss generalizing us cli with
  | nil =>
    cases List.map_eq_nil_iff.mp h.symm
    rfl
  | cons s ss ih =>
    cases us with
    | nil => cases h
    | cons u us =>
      obtain ⟨hu,hrest⟩ := List.cons.inj h
      have hstep : Setting.step parseLevel (some cli) s = some (u.apply cli) := by
        rw [step_eq,Option.bind_some,hu,Option.map_some]
      rw [List.foldl_cons,List.foldl_cons,hstep]
      exact ih hrest (u.apply cli)

/-! ## Reading it back -/

private theorem trim_toText (addr : SocketAddr) : trim addr.toText = addr.toText :=
  (Trimmed.of_forall addr.toText_visible).trim_eq

private theorem parseAddr_toText {addr : SocketAddr} (h : addr.InRange) : parseAddr addr.toText = .ok addr := by
  unfold parseAddr
  simp [trim_toText,parseSocketAddr_toText h]

private theorem parseSyslogTarget_toText {addr : SocketAddr} (h : addr.InRange) :
    parseSyslogTarget addr.toText = .ok addr := by
  unfold parseSyslogTarget
  simp [trim_toText,parseSocketAddr_toText h]

private theorem parseUsize_natText {n : Nat} (h : n < 2^64) : parseUsize (natText n) = .ok n := by
  rw [parseUsize,parseUnsigned_natText h]

private theorem toSettings_update (hlevel : ∀ level : LevelFilter, parseLevel level.text = .ok level)
    (hcli : cli.InRange) : cli.toSettings.map (Setting.update parseLevel) = cli.updates.map some := by
  have hflag (b : Bool) (flag : Flag) : (if b then [Setting.flag flag] else []).map (Setting.update parseLevel) =
      (if b then [Update.flag flag] else []).map some := by cases b <;> rfl
  have htcp : (cli.tcpAddrs.map fun addr => Setting.value .tcp addr.toText).map (Setting.update parseLevel) =
      (cli.tcpAddrs.map Update.tcp).map some := by
    rw [List.map_map,List.map_map]
    apply List.map_congr_left
    intro addr haddr
    simp [Setting.update,parseAddr_toText (hcli.tcpAddrs addr haddr),Except.toOption]
  have htls : (cli.tlsAddrs.map fun addr => Setting.value .tls addr.toText).map (Setting.update parseLevel) =
      (cli.tlsAddrs.map Update.tls).map some := by
    rw [List.map_map,List.map_map]
    apply List.map_congr_left
    intro addr haddr
    simp [Setting.update,parseAddr_toText (hcli.tlsAddrs addr haddr),Except.toOption]
  have hsyslog : (cli.config.syslogTarget.toList.map fun addr => Setting.value .syslog addr.toText).map
      (Setting.update parseLevel) = (cli.config.syslogTarget.toList.map Update.syslog).map some := by
    rw [List.map_map,List.map_map]
    apply List.map_congr_left
    intro addr haddr
    have htarget := hcli.syslogTarget addr (Option.mem_toList.mp haddr)
    simp [Setting.update,parseSyslogTarget_toText htarget,Except.toOption]
  have hcert : (cli.config.certPath.toList.map (Setting.value .cert)).map (Setting.update parseLevel) =
      (cli.config.certPath.toList.map Update.cert).map some := by cases cli.config.certPath <;> rfl
  have hkey : (cli.config.keyPath.toList.map (Setting.value .key)).map (Setting.update parseLevel) =
      (cli.config.keyPath.toList.map Update.key).map some := by cases cli.config.keyPath <;> rfl
  unfold Cli.toSettings Cli.updates
  simp only [List.map_append,hflag,htcp,htls,hsyslog,hcert,hkey]
  simp [Setting.update,parseUsize_natText hcli.workers,hlevel,Except.toOption]

/-- The configurations that come from a command line are those whose numbers are in range and that listen
for TLS; each of them is read back from the arguments written for it. -/
theorem parseCli_toArgs (hlevel : ∀ level : LevelFilter, parseLevel level.text = .ok level) (cli : Cli) :
    (∀ args, parseCli parseLevel args = .ok cli → cli.InRange ∧ cli.tlsAddrs ≠ []) ∧
      (cli.InRange ∧ cli.tlsAddrs ≠ [] → parseCli parseLevel cli.toArgs = .ok cli) := by
  constructor
  · exact fun args h => ⟨parseCli_inRange h,parseCli_tlsAddrs h⟩
  · rintro ⟨hcli,htls⟩
    have hargs : parseArgs parseLevel ⟨Config.default,[],[]⟩ cli.toArgs = .ok cli := by
      apply toOption_eq_some.mp
      rw [Cli.toArgs,parseArgs_settings,foldl_step_updates (toSettings_update hlevel hcli),updates_apply]
    rw [parseCli,hargs]
    exact congrArg Except.ok (if_neg htls)

end

def levelOf (t : Text) : Except Text LevelFilter :=
  let levels : List LevelFilter := [.off,.error,.warn,.info,.debug,.trace]
  match levels.find? fun level => level.text = t.map Char.toLower with
  | some level => .ok level
  | none => .error "attempted to convert a string that doesn't match an existing log level"

theorem parseCli_toArgs_golden :
    let cli : Cli := ⟨{ Config.default with
      numWorkers := 2
      syslogTarget := some (.v6 Ipv6Addr.unspecified 514 0)
      checkToken := false },[],[.v4 Ipv4Addr.unspecified 443,.v6 Ipv6Addr.unspecified 443 5]⟩
    cli.toArgs = ["-L","0.0.0.0:443","-L","[::%5]:443","--syslog","[::]:514","-S","secret.key","-t","2",
      "-log","off","--no-token-check"] ∧ parseCli levelOf cli.toArgs = .ok cli := by
  refine ⟨by decide,(parseCli_toArgs ?_ _).2 ⟨⟨nofun,?_,?_,by decide⟩,by decide⟩⟩
  · intro level
    cases level <;> decide
  · intro addr haddr
    simp only [List.mem_cons,List.not_mem_nil,or_false] at haddr
    rcases haddr with rfl | rfl
    · exact ⟨by decide,by decide⟩
    · exact ⟨by decide,by decide⟩
  · rintro _ ⟨⟩
    exact ⟨by decide,by decide⟩

theorem parseCli_order_golden :
    ∃ cli, parseCli levelOf ["-t","4","-l","8080","-t","2"] = .ok cli ∧
      parseCli levelOf ["-t","4","-t","2","-l","8080"] = .ok cli := by
  obtain ⟨cli,hcli⟩ : ∃ cli, parseCli levelOf ["-t","4","-l","8080","-t","2"] = .ok cli := ⟨_,rfl⟩
  have hsettings (option : ValueOption ⊕ Flag) :
      withKey Setting.option option (settings ["-t","4","-l","8080","-t","2"]) =
        withKey Setting.option option [.value .threads "4",.value .threads "2",.value .tcp "8080"] := by
    rcases option with option | flag
    · cases option <;> decide
    · cases flag <;> decide
  exact ⟨cli,hcli,parseCli_order hcli hsettings⟩

end Rmbtd
