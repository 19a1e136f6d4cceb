import Rmbtd.Config.Config
import Rmbtd.Library.Utf8
import Rmbtd.Net.AddrParser

/-!
# Secret key file and command line

The parsers of `config/parser.rs`. How the log crate reads a level is a parameter.
-/

namespace Rmbtd

/-! ## Secret key file -/

/-- `str::split_inclusive` at line feeds. -/
def splitInclusive : Text → List Text
  | [] => []
  | c::cs =>
    if c = '\n' then [c]::splitInclusive cs
    else match splitInclusive cs with
      | [] => [[c]]
      | line::lines => (c::line)::lines

def stripSuffix (suffix s : Text) : Option Text :=
  (stripPrefix suffix.reverse s.reverse).map List.reverse

def lines (s : Text) : List Text :=
  (splitInclusive s).map fun line => match stripSuffix "\n" line with
    | none => line
    | some line => (stripSuffix "\r" line).getD line

/-- A line of the key file; short lines and comments are skipped. -/
def readSecretKey (line : Text) : Option SecretKey :=
  let line := trim line
  if byteLen line < 5 ∨ line.head? = some '#' then none
  else match splitOnce " " line with
    | some (key,label) => some ⟨key,trim label⟩
    | none => some ⟨line,[]⟩

/-- `read_secret_keys`, for a file system that reads the file or fails. -/
def readSecretKeys (readToString : Text → Except Text Text) (path : Text) :
    Except Text (List SecretKey) :=
  match readToString path with
  | .error e => .error ("cannot open secret key file '".toList ++ path ++ "': ".toList ++ e)
  | .ok content =>
    let keys := (lines content).filterMap readSecretKey
    if keys = [] then .error ("no valid keys found in '".toList ++ path ++ "'".toList)
    else .ok keys

/-! ## Addresses -/

def rsplitOnce (c : Char) (s : Text) : Option (Text × Text) :=
  (splitOnce [c] s.reverse).map fun p => (p.2.reverse,p.1.reverse)

def parsePort (s : Text) : Option Nat := parseUnsigned 65536 s

/-- Parse a listen address: bare port, IPv4:port, [IPv6]:port. -/
def parseAddr (s : Text) : Except Text SocketAddr :=
  let s := trim s
  let bracketed : Option SocketAddr := do
    guard (s.head? = some '[')
    let (address,rest) ← rsplitOnce ']' s
    let port ← stripPrefix ":" rest
    return .new (.v6 (← parseIpv6Addr (address.drop 1))) (← parsePort port)
  let withPort : Option SocketAddr := do
    let (address,port) ← splitOnce ":" s
    return .new (.v4 (← parseIpv4Addr address)) (← parsePort port)
  let barePort : Option SocketAddr := do
    return .new (.v4 Ipv4Addr.unspecified) (← parsePort s)
  match parseSocketAddr s <|> bracketed <|> withPort <|> barePort with
  | some addr => .ok addr
  | none => .error ("invalid address: '".toList ++ s ++ "'".toList)

/-- Parse a syslog target of the form `IP` or `IP:port`. -/
def parseSyslogTarget (s : Text) : Except Text SocketAddr :=
  let s := trim s
  match parseSocketAddr s <|> (parseIpAddr s).map fun ip => .new ip 514 with
  | some addr => .ok addr
  | none => .error ("invalid syslog target: '".toList ++ s ++ "' (expected IP or IP:port)".toList)

def parseUsize (s : Text) : Except Text Nat :=
  match parseUnsigned (2^64) s with
  | some n => .ok n
  | none => .error (parseUnsignedError (2^64) s)

/-! ## Command line -/

/-- Fully-resolved configuration parsed from the command line. -/
structure Cli where
  config : Config
  tcpAddrs : List SocketAddr
  tlsAddrs : List SocketAddr
deriving DecidableEq

/-- The options that take the next argument as their value. -/
inductive ValueOption
  | tcp
  | tls
  | cert
  | key
  | secretKeys
  | threads
  | logLevel
  | syslog
deriving DecidableEq

inductive Flag
  | tls13Only
  | hsts
  | start
  | noTokenCheck
  | v2Only
  | logFullIp
deriving DecidableEq

inductive CliOption
  | value (option : ValueOption)
  | flag (flag : Flag)
  | help
  | version
deriving DecidableEq

/-- The arms of `parse_cli`. -/
def cliOptions : List (Text × CliOption) :=
  [("-l",.value .tcp),("-L",.value .tls),("-c",.value .cert),("-k",.value .key),
    ("--tls13-only",.flag .tls13Only),("--hsts",.flag .hsts),("-S",.value .secretKeys),
    ("-t",.value .threads),("-log",.value .logLevel),("-s",.flag .start),
    ("--no-token-check",.flag .noTokenCheck),("--v2-only",.flag .v2Only),
    ("--syslog",.value .syslog),("--log-full-ip",.flag .logFullIp),("--help",.help),("-h",.help),
    ("-v",.version),("--version",.version)]

/-- Why no configuration is returned. -/
inductive CliExit
  /-- The help or the version was printed. -/
  | printed
  | error (message : Text)
  /-- The process exits with code 1. -/
  | unknownOption (option : Text)
deriving DecidableEq

section Cli
variable (parseLevel : Text → Except Text LevelFilter)

def ValueOption.set (cli : Cli) (value : Text) : ValueOption → Except Text Cli
  | .tcp => (parseAddr value).map fun addr => { cli with tcpAddrs := cli.tcpAddrs ++ [addr] }
  | .tls => (parseAddr value).map fun addr => { cli with tlsAddrs := cli.tlsAddrs ++ [addr] }
  | .cert => .ok { cli with config.certPath := some value }
  | .key => .ok { cli with config.keyPath := some value }
  | .secretKeys => .ok { cli with config.secretKeyPath := value }
  | .threads => (parseUsize value).map fun n => { cli with config.numWorkers := n }
  | .logLevel => (parseLevel value).map fun level => { cli with config.logLevel := level }
  | .syslog => (parseSyslogTarget value).map fun addr => { cli with config.syslogTarget := some addr }

def Flag.set (cli : Cli) : Flag → Cli
  | .tls13Only => { cli with config.tls13Only := true }
  | .hsts => { cli with config.hsts := true }
  | .start => cli
  | .noTokenCheck => { cli with config.checkToken := false }
  | .v2Only => { cli with config.v2Only := true }
  | .logFullIp => { cli with config.logFullIp := true }

/-- The loop over the arguments; an option whose value is missing is ignored. -/
def parseArgs (cli : Cli) : List Text → Except CliExit Cli
  | [] => .ok cli
  | arg::args => match cliOptions.lookup arg with
    | some (.value option) => match args with
      | [] => .ok cli
      | value::args => match option.set parseLevel cli value with
        | .ok cli => parseArgs cli args
        | .error message => .error (.error message)
    | some (.flag flag) => parseArgs (flag.set cli) args
    | some .help => .error .printed
    | some .version => .error .printed
    | none => .error (.unknownOption arg)

/-- TCP has no default; TLS listens on the default port of both families. -/
def Cli.withDefaultListeners (cli : Cli) : Cli :=
  if cli.tlsAddrs = [] then { cli with
    tlsAddrs := [.new (.v6 Ipv6Addr.unspecified) defaultTlsPort,.new (.v4 Ipv4Addr.unspecified) defaultTlsPort] }
  else cli

/-- Parse the command-line arguments into the final configuration. -/
def parseCli (args : List Text) : Except CliExit Cli :=
  (parseArgs parseLevel ⟨Config.default,[],[]⟩ args).map Cli.withDefaultListeners

end Cli

/-! ## What the options set -/

/-- An option of the command line, with its value. -/
inductive Setting
  | value (option : ValueOption) (value : Text)
  | flag (flag : Flag)
deriving DecidableEq

/-- The options of a command line in order, up to one that ends the program. -/
def settings : List Text → List Setting
  | [] => []
  | arg::args => match cliOptions.lookup arg with
    | some (.value option) => match args with
      | [] => []
      | value::args => .value option value::settings args
    | some (.flag flag) => .flag flag::settings args
    | _ => []

def Setting.valueOf (option : ValueOption) : Setting → Option Text
  | .value o v => if o = option then some v else none
  | .flag _ => none

/-- The value of the last occurrence of an option. -/
def lastValue (option : ValueOption) (args : List Text) : Option Text :=
  ((settings args).filterMap (Setting.valueOf option)).getLast?

def hasFlag (flag : Flag) (args : List Text) : Bool := (settings args).contains (.flag flag)

section Fields
variable {parseLevel : Text → Except Text LevelFilter} {α : Type}

theorem parseArgs_field {field : Cli → α} {g : α → Setting → α}
    (hvalue : ∀ (option : ValueOption) cli value cli', option.set parseLevel cli value = .ok cli' →
      field cli' = g (field cli) (.value option value))
    (hflag : ∀ (flag : Flag) cli, field (flag.set cli) = g (field cli) (.flag flag))
    {args : List Text} {cli cli' : Cli} (h : parseArgs parseLevel cli args = .ok cli') :
    field cli' = (settings args).foldl g (field cli) := by
  induction cli, args using parseArgs.induct parseLevel with
  | case1 cli =>
    rw [parseArgs] at h
    cases h
    rfl
  | case2 cli arg o hlookup =>
    rw [parseArgs.eq_def] at h
    simp only [hlookup] at h
    cases h
    simp [settings,hlookup]
  | case3 cli arg o hlookup value args cli₁ hset ih =>
    rw [parseArgs.eq_def] at h
    simp only [hlookup,hset] at h
    have hsettings : settings (arg::value::args) = .value o value::settings args := by
      rw [settings.eq_def]
      simp only [hlookup]
    rw [ih h,hsettings,List.foldl_cons,hvalue o cli value cli₁ hset]
  | case4 cli arg o hlookup value args message hset =>
    rw [parseArgs.eq_def] at h
    simp only [hlookup,hset] at h
    cases h
  | case5 cli arg args flag hlookup ih =>
    rw [parseArgs.eq_def] at h
    simp only [hlookup] at h
    have hsettings : settings (arg::args) = .flag flag::settings args := by
      rw [settings.eq_def]
      simp only [hlookup]
    rw [ih h,hsettings,List.foldl_cons,hflag]
  | _ =>
    rw [parseArgs.eq_def] at h
    simp only [*] at h
    cases h

private theorem map_eq_ok {ε α β : Type} {x : Except ε α} {g : α → β} {b : β} (h : x.map g = .ok b) :
    ∃ a, x = .ok a ∧ b = g a := by
  cases x with
  | error e => cases h
  | ok a =>
    cases h
    exact ⟨a,rfl,rfl⟩

theorem ValueOption.set_cases {option : ValueOption} {cli cli' : Cli} {value : Text}
    (h : option.set parseLevel cli value = .ok cli') :
    (option = .tcp ∧ ∃ addr, cli' = { cli with tcpAddrs := cli.tcpAddrs ++ [addr] }) ∨
    (option = .tls ∧ ∃ addr, cli' = { cli with tlsAddrs := cli.tlsAddrs ++ [addr] }) ∨
    (option = .cert ∧ cli' = { cli with config.certPath := some value }) ∨
    (option = .key ∧ cli' = { cli with config.keyPath := some value }) ∨
    (option = .threads ∧ ∃ n, parseUsize value = .ok n ∧ cli' = { cli with config.numWorkers := n }) ∨
    (option = .secretKeys ∨ option = .logLevel ∨ option = .syslog) ∧
      ∃ path level target, cli' = { cli with
        config.secretKeyPath := path
        config.logLevel := level
        config.syslogTarget := target } := by
  cases option with
  | tcp =>
    obtain ⟨addr,-,rfl⟩ := map_eq_ok h
    simp
  | tls =>
    obtain ⟨addr,-,rfl⟩ := map_eq_ok h
    simp
  | cert =>
    cases h
    simp
  | key =>
    cases h
    simp
  | secretKeys =>
    cases h
    simp
  | threads =>
    obtain ⟨n,hn,rfl⟩ := map_eq_ok h
    simp [hn]
  | logLevel =>
    obtain ⟨level,-,rfl⟩ := map_eq_ok h
    simp
  | syslog =>
    obtain ⟨addr,-,rfl⟩ := map_eq_ok h
    simp

/-- A field that one option sets has the value of the option's last occurrence. -/
theorem parseArgs_lastValue {field : Cli → α} {option : ValueOption} {f : Text → α}
    (hset : ∀ cli value cli', option.set parseLevel cli value = .ok cli' → field cli' = f value)
    (hother : ∀ other ≠ option, ∀ cli value cli', other.set parseLevel cli value = .ok cli' →
      field cli' = field cli)
    (hflag : ∀ (flag : Flag) cli, field (flag.set cli) = field cli)
    {args : List Text} {cli cli' : Cli} (h : parseArgs parseLevel cli args = .ok cli') :
    field cli' = ((lastValue option args).map f).getD (field cli) := by
  have hfold (l : List Setting) (a : α) : l.foldl (fun r s => ((s.valueOf option).map f).getD r) a =
      ((l.filterMap (Setting.valueOf option)).getLast?.map f).getD a := by
    induction l using List.reverseRecOn with
    | nil => rfl
    | append_singleton l s ih =>
      rw [List.foldl_append,List.filterMap_append,List.foldl_cons,List.foldl_nil,ih]
      cases hs : s.valueOf option with
      | none => simp [hs]
      | some v => simp [hs]
  rw [lastValue,← hfold]
  apply parseArgs_field _ _ h
  · intro other cli value cli' hvalue
    by_cases hother' : other = option
    · subst hother'
      simpa [Setting.valueOf] using hset cli value cli' hvalue
    · simpa [Setting.valueOf,hother'] using hother other hother' cli value cli' hvalue
  · exact hflag

private theorem parseCli_ok {args : List Text} {cli : Cli} (h : parseCli parseLevel args = .ok cli) :
    ∃ cli', parseArgs parseLevel ⟨Config.default,[],[]⟩ args = .ok cli' ∧
      cli = cli'.withDefaultListeners ∧ cli.config = cli'.config ∧ cli.tcpAddrs = cli'.tcpAddrs := by
  obtain ⟨cli',hargs,rfl⟩ := map_eq_ok h
  refine ⟨cli',hargs,rfl,?_⟩
  unfold Cli.withDefaultListeners
  split <;> exact ⟨rfl,rfl⟩

theorem parseCli_numWorkers {args : List Text} {cli : Cli} (h : parseCli parseLevel args = .ok cli) :
    .ok cli.config.numWorkers = ((lastValue .threads args).map parseUsize).getD (.ok 200) := by
  obtain ⟨cli',hargs,-,hconfig,-⟩ := parseCli_ok h
  rw [hconfig]
  refine @parseArgs_lastValue parseLevel _ (fun cli => (Except.ok cli.config.numWorkers : Except Text Nat))
    .threads parseUsize ?_ ?_ ?_ _ _ _ hargs
  · intro cli value cli' hset
    obtain ⟨n,hn,rfl⟩ := map_eq_ok hset
    exact hn.symm
  · intro other hne cli value cli' hset
    rcases ValueOption.set_cases hset with ⟨-,_,rfl⟩ | ⟨-,_,rfl⟩ | ⟨-,rfl⟩ | ⟨-,rfl⟩ | ⟨h,-⟩ | ⟨-,_,_,_,rfl⟩
    all_goals first | rfl | exact absurd h hne
  · intro flag cli
    cases flag <;> rfl

theorem parseCli_certPath {args : List Text} {cli : Cli} (h : parseCli parseLevel args = .ok cli) :
    cli.config.certPath = lastValue .cert args := by
  obtain ⟨cli',hargs,-,hconfig,-⟩ := parseCli_ok h
  have hlast := @parseArgs_lastValue parseLevel _ (fun cli => cli.config.certPath)
    .cert some ?_ ?_ ?_ _ _ _ hargs
  · rw [hconfig,hlast]
    cases lastValue .cert args <;> rfl
  · intro cli value cli' hset
    cases hset
    rfl
  · intro other hne cli value cli' hset
    rcases ValueOption.set_cases hset with ⟨-,_,rfl⟩ | ⟨-,_,rfl⟩ | ⟨h,-⟩ | ⟨-,rfl⟩ | ⟨-,_,_,rfl⟩ | ⟨-,_,_,_,rfl⟩
    all_goals first | rfl | exact absurd h hne
  · intro flag cli
    cases flag <;> rfl

theorem parseCli_keyPath {args : List Text} {cli : Cli} (h : parseCli parseLevel args = .ok cli) :
    cli.config.keyPath = lastValue .key args := by
  obtain ⟨cli',hargs,-,hconfig,-⟩ := parseCli_ok h
  have hlast := @parseArgs_lastValue parseLevel _ (fun cli => cli.config.keyPath)
    .key some ?_ ?_ ?_ _ _ _ hargs
  · rw [hconfig,hlast]
    cases lastValue .key args <;> rfl
  · intro cli value cli' hset
    cases hset
    rfl
  · intro other hne cli value cli' hset
    rcases ValueOption.set_cases hset with ⟨-,_,rfl⟩ | ⟨-,_,rfl⟩ | ⟨-,rfl⟩ | ⟨h,-⟩ | ⟨-,_,_,rfl⟩ | ⟨-,_,_,_,rfl⟩
    all_goals first | rfl | exact absurd h hne
  · intro flag cli
    cases flag <;> rfl

theorem parseCli_tcpAddrs {args : List Text} {cli : Cli} (h : parseCli parseLevel args = .ok cli) :
    cli.tcpAddrs = [] ↔ lastValue .tcp args = none := by
  obtain ⟨cli',hargs,-,-,htcp⟩ := parseCli_ok h
  have hlast := @parseArgs_lastValue parseLevel _ (fun cli => cli.tcpAddrs.isEmpty)
    .tcp (fun _ => false) ?_ ?_ ?_ _ _ _ hargs
  · rw [htcp,← List.isEmpty_iff,hlast]
    cases lastValue .tcp args <;> simp
  · intro cli value cli' hset
    obtain ⟨addr,-,rfl⟩ := map_eq_ok hset
    simp
  · intro other hne cli value cli' hset
    rcases ValueOption.set_cases hset with ⟨h,-⟩ | ⟨-,_,rfl⟩ | ⟨-,rfl⟩ | ⟨-,rfl⟩ | ⟨-,_,_,rfl⟩ | ⟨-,_,_,_,rfl⟩
    all_goals first | rfl | exact absurd h hne
  · intro flag cli
    cases flag <;> rfl

theorem parseCli_tls13Only {args : List Text} {cli : Cli} (h : parseCli parseLevel args = .ok cli) :
    cli.config.tls13Only = hasFlag .tls13Only args := by
  obtain ⟨cli',hargs,-,hconfig,-⟩ := parseCli_ok h
  have hfold := @parseArgs_field parseLevel _ (fun cli => cli.config.tls13Only)
    (fun r s => r || s == .flag .tls13Only) ?_ ?_ _ _ _ hargs
  · have hany (l : List Setting) (a : Bool) : l.foldl (fun r s => r || s == .flag .tls13Only) a =
        (a || l.any fun s => s == .flag .tls13Only) := by
      induction l generalizing a with
      | nil => simp
      | cons s l ih => rw [List.foldl_cons,ih,List.any_cons,Bool.or_assoc]
    rw [hconfig,hfold,hany,hasFlag,List.contains_eq_any_beq]
    simp [Config.default,Bool.beq_comm]
  · intro option cli value cli' hset
    rcases ValueOption.set_cases hset with ⟨-,_,rfl⟩ | ⟨-,_,rfl⟩ | ⟨-,rfl⟩ | ⟨-,rfl⟩ | ⟨-,_,_,rfl⟩ | ⟨-,_,_,_,rfl⟩
    all_goals simp
  · intro flag cli
    cases flag <;> simp [Flag.set]

/-- There is always an address to listen on for TLS. -/
theorem parseCli_tlsAddrs {args : List Text} {cli : Cli} (h : parseCli parseLevel args = .ok cli) :
    cli.tlsAddrs ≠ [] := by
  obtain ⟨cli',-,rfl,-⟩ := parseCli_ok h
  unfold Cli.withDefaultListeners
  split
  · exact List.cons_ne_nil _ _
  · next h => exact h

end Fields

end Rmbtd
