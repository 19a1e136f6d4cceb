import Rmbtd.Library.Decimal

/-!
# IP addresses

The addresses of Rust's `std::net` with the predicates and the text form the server uses.
-/

namespace Rmbtd

structure Ipv4Addr where
  octets : Vector UInt8 4
deriving DecidableEq

structure Ipv6Addr where
  octets : Vector UInt8 16
deriving DecidableEq

inductive IpAddr
  | v4 (addr : Ipv4Addr)
  | v6 (addr : Ipv6Addr)
deriving DecidableEq

/-- `SocketAddr`; the flow information of an IPv6 address has no text form and no reader. -/
inductive SocketAddr
  | v4 (ip : Ipv4Addr) (port : Nat)
  | v6 (ip : Ipv6Addr) (port scopeId : Nat)
deriving DecidableEq

namespace Ipv4Addr

def unspecified : Ipv4Addr := ⟨#v[0,0,0,0]⟩

def isLoopback (a : Ipv4Addr) : Bool := a.octets[0] == 127

def isLinkLocal (a : Ipv4Addr) : Bool := a.octets[0] == 169 && a.octets[1] == 254

def isPrivate (a : Ipv4Addr) : Bool :=
  a.octets[0] == 10 || (a.octets[0] == 172 && 16 ≤ a.octets[1].toNat && a.octets[1].toNat ≤ 31) ||
    (a.octets[0] == 192 && a.octets[1] == 168)

def toText (a : Ipv4Addr) : Text :=
  natText a.octets[0].toNat ++ "." ++ natText a.octets[1].toNat ++ "." ++
    natText a.octets[2].toNat ++ "." ++ natText a.octets[3].toNat

theorem toText_chars {a : Ipv4Addr} {c : Char} (hc : c ∈ a.toText) : c.isDigit ∨ c = '.' := by
  have hdot : c ∈ ".".toList → c = '.' := by simp
  simp only [toText,List.mem_append] at hc
  rcases hc with (((((hc | hc) | hc) | hc) | hc) | hc) | hc
  · exact Or.inl (natText_isDigit hc)
  · exact Or.inr (hdot hc)
  · exact Or.inl (natText_isDigit hc)
  · exact Or.inr (hdot hc)
  · exact Or.inl (natText_isDigit hc)
  · exact Or.inr (hdot hc)
  · exact Or.inl (natText_isDigit hc)

/-- The prefix of IPv4-mapped IPv6 addresses, `::ffff:0:0/96`. -/
def mappedPrefix : Vector UInt8 12 := #v[0,0,0,0,0,0,0,0,0,0,0xff,0xff]

def toIpv6Mapped (a : Ipv4Addr) : Ipv6Addr := ⟨mappedPrefix ++ a.octets⟩

theorem toIpv6Mapped_octets (a : Ipv4Addr) :
    a.toIpv6Mapped.octets.toList = mappedPrefix.toList ++ a.octets.toList :=
  Vector.toList_append

end Ipv4Addr

namespace Ipv6Addr

def unspecified : Ipv6Addr := ⟨Vector.replicate 16 0⟩

def segments (a : Ipv6Addr) : List Nat :=
  (List.finRange 8).map fun i => a.octets[2 * i.val].toNat * 256 + a.octets[2 * i.val + 1].toNat

def ofSegments (groups : List Nat) : Ipv6Addr :=
  ⟨Vector.ofFn fun i =>
    let group := groups.getD (i.val / 2) 0
    UInt8.ofNat (if i.val % 2 = 0 then group / 256 else group % 256)⟩

def isLoopback (a : Ipv6Addr) : Bool := a.octets.toList == List.replicate 15 0 ++ [1]

def toIpv4Mapped (a : Ipv6Addr) : Option Ipv4Addr :=
  if a.octets.toList.take 12 = Ipv4Addr.mappedPrefix.toList then
    some ⟨#v[a.octets[12],a.octets[13],a.octets[14],a.octets[15]]⟩
  else none

private def zeroRun : List Nat → Nat → Nat × Nat → Nat × Nat → Nat × Nat
  | [], _, _, longest => longest
  | g::gs, i, current, longest =>
    if g = 0 then
      let current := (if current.2 = 0 then i else current.1,current.2 + 1)
      zeroRun gs (i+1) current (if longest.2 < current.2 then current else longest)
    else zeroRun gs (i+1) (0,0) longest

private def groupsText : List Nat → Text
  | [] => []
  | [g] => hexText g
  | g::gs => hexText g ++ ":" ++ groupsText gs

def joinGroups : List Nat → Text
  | [] => []
  | g::gs => hexText g ++ gs.flatMap fun g => ':'::hexText g

def toText (a : Ipv6Addr) : Text :=
  match a.toIpv4Mapped with
  | some v4 => "::ffff:" ++ v4.toText
  | none =>
    let zeroes := zeroRun a.segments 0 (0,0) (0,0)
    if 1 < zeroes.2 then
      groupsText (a.segments.take zeroes.1) ++ "::" ++ groupsText (a.segments.drop (zeroes.1 + zeroes.2))
    else groupsText a.segments

private def ZeroRun (gs : List Nat) (run : Nat × Nat) : Prop :=
  ∀ j, run.1 ≤ j → j < run.1 + run.2 → gs[j]? = some 0

private theorem ZeroRun.grow {gs : List Nat} {i : Nat} {run : Nat × Nat} (h : ZeroRun gs run)
    (hends : run.2 ≠ 0 → run.1 + run.2 = i) (hi : gs[i]? = some 0) :
    ZeroRun gs (if run.2 = 0 then i else run.1,run.2 + 1) ∧
      (if run.2 = 0 then i else run.1) + (run.2 + 1) = i + 1 := by
  by_cases hempty : run.2 = 0
  · rw [if_pos hempty,hempty]
    refine ⟨?_,rfl⟩
    intro j hle hlt
    have hj : j = i := by
      dsimp only at hle hlt
      omega
    rw [hj,hi]
  · rw [if_neg hempty]
    have hends := hends hempty
    refine ⟨?_,by omega⟩
    intro j hle hlt
    dsimp only at hle hlt
    by_cases hj : j = i
    · rw [hj,hi]
    · exact h j hle (by omega)

private theorem zeroRun_spec {all : List Nat} (gs : List Nat) (i : Nat) (current longest : Nat × Nat)
    (hgs : all.drop i = gs) (hcurrent : ZeroRun all current)
    (hends : current.2 ≠ 0 → current.1 + current.2 = i) (hlongest : ZeroRun all longest) :
    ZeroRun all (zeroRun gs i current longest) := by
  induction gs generalizing i current longest with
  | nil => exact hlongest
  | cons g gs ih =>
    have hg : all[i]? = some g := by rw [← List.head?_drop,hgs]; rfl
    have hrest : all.drop (i+1) = gs := by rw [← List.tail_drop,hgs]; rfl
    unfold zeroRun
    by_cases hzero : g = 0
    · rw [if_pos hzero]
      rw [hzero] at hg
      obtain ⟨hgrown,hgrownEnds⟩ := hcurrent.grow hends hg
      apply ih _ _ _ hrest hgrown fun _ => hgrownEnds
      by_cases hlonger : longest.2 < current.2 + 1
      · rw [if_pos hlonger]
        exact hgrown
      · rw [if_neg hlonger]
        exact hlongest
    · rw [if_neg hzero]
      apply ih _ _ _ hrest _ (fun h => absurd rfl h) hlongest
      intro j _ hlt
      exact absurd hlt (by simp)

private theorem groupsText_eq (gs : List Nat) : groupsText gs = joinGroups gs := by
  induction gs using groupsText.induct with
  | case1 => rfl
  | case2 g => simp [groupsText,joinGroups]
  | case3 g gs hne ih =>
    rw [groupsText.eq_3 _ _ hne,ih]
    cases gs with
    | nil => exact absurd rfl hne
    | cons h gs => simp [joinGroups]

theorem segments_length (a : Ipv6Addr) : a.segments.length = 8 := by simp [segments]

theorem getElem?_segments (a : Ipv6Addr) {i : Nat} (hi : i < 8) :
    a.segments[i]? = some (a.octets[2 * i].toNat * 256 + a.octets[2 * i + 1].toNat) := by
  simp [segments,hi]

theorem segments_lt {a : Ipv6Addr} {g : Nat} (hg : g ∈ a.segments) : g < 65536 := by
  obtain ⟨i,-,rfl⟩ := List.mem_map.mp hg
  have hhigh := a.octets[2 * i.val].toNat_lt
  have hlow := a.octets[2 * i.val + 1].toNat_lt
  omega

theorem ofSegments_segments (a : Ipv6Addr) : ofSegments a.segments = a := by
  cases a with
  | mk octets =>
    unfold ofSegments
    congr 1
    apply Vector.ext
    intro i hi
    rw [Vector.getElem_ofFn]
    have hgroup : (Ipv6Addr.mk octets).segments.getD (i / 2) 0 =
        octets[2 * (i / 2)].toNat * 256 + octets[2 * (i / 2) + 1].toNat := by
      rw [List.getD_eq_getElem?_getD,getElem?_segments _ (by omega),Option.getD_some]
    have hlow := octets[2 * (i / 2) + 1].toNat_lt
    dsimp only
    rw [hgroup]
    by_cases heven : i % 2 = 0
    · rw [if_pos heven]
      have hdiv : (octets[2 * (i / 2)].toNat * 256 + octets[2 * (i / 2) + 1].toNat) / 256 =
          octets[2 * (i / 2)].toNat := by omega
      have hi : 2 * (i / 2) = i := by omega
      rw [hdiv,UInt8.ofNat_toNat]
      simp only [hi]
    · rw [if_neg heven]
      have hmod : (octets[2 * (i / 2)].toNat * 256 + octets[2 * (i / 2) + 1].toNat) % 256 =
          octets[2 * (i / 2) + 1].toNat := by omega
      have hi : 2 * (i / 2) + 1 = i := by omega
      rw [hmod,UInt8.ofNat_toNat]
      simp only [hi]

theorem toText_groups {a : Ipv6Addr} (h : a.toIpv4Mapped = none) :
    a.toText = joinGroups a.segments ∨ ∃ head tail, head.length + tail.length < 7 ∧
      a.segments = head ++ List.replicate (8 - head.length - tail.length) 0 ++ tail ∧
      a.toText = joinGroups head ++ "::" ++ joinGroups tail := by
  unfold toText
  rw [h]
  dsimp only
  have hrun : ZeroRun a.segments (zeroRun a.segments 0 (0,0) (0,0)) := by
    have hempty : ZeroRun a.segments (0,0) := fun j _ hlt => absurd hlt (by simp)
    exact zeroRun_spec _ 0 _ _ rfl hempty (fun h => absurd rfl h) hempty
  generalize zeroRun a.segments 0 (0,0) (0,0) = run at hrun ⊢
  obtain ⟨k,n⟩ := run
  dsimp only
  by_cases hn : 1 < n
  · rw [if_pos hn]
    have hlength := a.segments_length
    have hle : k + n ≤ 8 := by
      have hlast := hrun (k + n - 1) (by dsimp only; omega) (by dsimp only; omega)
      have hlt := (List.getElem?_eq_some_iff.mp hlast).1
      omega
    have htake : (a.segments.take k).length = k := by
      rw [List.length_take]
      omega
    have hdrop : (a.segments.drop (k+n)).length = 8 - (k+n) := by rw [List.length_drop,hlength]
    refine Or.inr ⟨a.segments.take k,a.segments.drop (k+n),by omega,?_,?_⟩
    · have hmiddle : (a.segments.drop k).take n = List.replicate n 0 := by
        apply List.eq_replicate_iff.mpr
        refine ⟨by rw [List.length_take,List.length_drop]; omega,?_⟩
        intro g hg
        obtain ⟨j,hj⟩ := List.mem_iff_getElem?.mp hg
        have hjn : j < n := by
          have := (List.getElem?_eq_some_iff.mp hj).1
          rw [List.length_take] at this
          omega
        rw [List.getElem?_take_of_lt hjn,List.getElem?_drop,hrun (k+j) (by simp) (by dsimp only; omega)] at hj
        exact (Option.some.inj hj).symm
      have hzeroes : 8 - (a.segments.take k).length - (a.segments.drop (k+n)).length = n := by omega
      rw [hzeroes,← hmiddle,List.append_assoc,← List.drop_drop,List.take_append_drop,
        List.take_append_drop]
    · rw [groupsText_eq,groupsText_eq]
  · rw [if_neg hn]
    exact Or.inl (groupsText_eq _)

private theorem groupsText_chars {gs : List Nat} {c : Char} (hc : c ∈ groupsText gs) :
    (∃ n, c ∈ hexText n) ∨ c = ':' := by
  induction gs using groupsText.induct with
  | case1 => simp [groupsText] at hc
  | case2 g => exact Or.inl ⟨g,by simpa [groupsText] using hc⟩
  | case3 g gs hne ih =>
    rw [groupsText.eq_3 _ _ hne] at hc
    simp only [List.mem_append] at hc
    rcases hc with (hc | hc) | hc
    · exact Or.inl ⟨g,hc⟩
    · exact Or.inr (by simpa using hc)
    · exact ih hc

theorem toText_chars {a : Ipv6Addr} {c : Char} (hc : c ∈ a.toText) :
    (∃ v4 : Ipv4Addr, c ∈ v4.toText) ∨ (∃ n, c ∈ hexText n) ∨ c = ':' ∨ c = 'f' := by
  unfold toText at hc
  split at hc
  · next v4 _ =>
    rcases List.mem_append.mp hc with hc | hc
    · have hc : c ∈ [':',':','f','f','f','f',':'] := hc
      simp only [List.mem_cons,List.not_mem_nil,or_false] at hc
      tauto
    · exact Or.inl ⟨v4,hc⟩
  · have hmid : c ∈ "::".toList → c = ':' := by simp
    dsimp only at hc
    split at hc
    · simp only [List.mem_append] at hc
      rcases hc with (hc | hc) | hc
      · rcases groupsText_chars hc with h | h <;> simp [h]
      · simp [hmid hc]
      · rcases groupsText_chars hc with h | h <;> simp [h]
    · rcases groupsText_chars hc with h | h <;> simp [h]

end Ipv6Addr

namespace IpAddr

def isIpv4 : IpAddr → Bool
  | .v4 _ => true
  | .v6 _ => false

/-- An IPv4-mapped IPv6 address counts as the IPv4 address. -/
def toCanonical : IpAddr → IpAddr
  | .v4 a => .v4 a
  | .v6 a => match a.toIpv4Mapped with
    | some b => .v4 b
    | none => .v6 a

def toText : IpAddr → Text
  | .v4 a => a.toText
  | .v6 a => a.toText

theorem toText_chars {ip : IpAddr} {c : Char} (hc : c ∈ ip.toText) :
    (∃ d < 16, c = Nat.digitChar d) ∨ c = '.' ∨ c = ':' := by
  have hdigit {c : Char} (h : c.isDigit) : ∃ d < 16, c = Nat.digitChar d := by
    have hle := Char.isDigit_iff_toNat.mp h
    simp only [Char.reduceToNat] at hle
    refine ⟨c.toNat - 48,by omega,?_⟩
    have hall : ∀ n < 10, Char.ofNat (n + 48) = Nat.digitChar n := by decide
    rw [← hall (c.toNat - 48) (by omega),Nat.sub_add_cancel hle.1,Char.ofNat_toNat]
  have hv4 {a : Ipv4Addr} (h : c ∈ a.toText) : (∃ d < 16, c = Nat.digitChar d) ∨ c = '.' ∨ c = ':' := by
    rcases Ipv4Addr.toText_chars h with h | h
    · exact Or.inl (hdigit h)
    · exact Or.inr (Or.inl h)
  cases ip with
  | v4 a => exact hv4 hc
  | v6 a =>
    rcases Ipv6Addr.toText_chars hc with ⟨b,h⟩ | ⟨n,h⟩ | h | h
    · exact hv4 h
    · exact Or.inl (hexText_digit h)
    · exact Or.inr (Or.inr h)
    · exact Or.inl ⟨15,by decide,h⟩

/-- The sixteen bytes of an address, IPv4 as IPv4-mapped IPv6. -/
def octets16 : IpAddr → Bytes
  | .v4 a => a.toIpv6Mapped.octets.toList
  | .v6 a => a.octets.toList

theorem octets16_length (ip : IpAddr) : ip.octets16.length = 16 := by
  cases ip <;> simp [octets16]

private theorem mapped_octets {a : Ipv6Addr} {b : Ipv4Addr} (h : a.toIpv4Mapped = some b) :
    b.toIpv6Mapped.octets.toList = a.octets.toList := by
  unfold Ipv6Addr.toIpv4Mapped at h
  split at h
  · next hp =>
    cases h
    have hlist : Ipv4Addr.mappedPrefix.toList ++
        [a.octets[12],a.octets[13],a.octets[14],a.octets[15]] = a.octets.toList := by
      rw [← hp]
      conv_rhs => rw [← List.take_append_drop 12 a.octets.toList]
      congr 1
      apply List.ext_getElem
      · simp
      · intro i hi hj
        simp only [List.length_cons,List.length_nil] at hi
        rw [List.getElem_drop]
        match i, hi with
        | 0, _ => rfl
        | 1, _ => rfl
        | 2, _ => rfl
        | 3, _ => rfl
    rw [Ipv4Addr.toIpv6Mapped_octets]
    exact hlist
  · cases h

theorem octets16_toCanonical (ip : IpAddr) : ip.toCanonical.octets16 = ip.octets16 := by
  cases ip with
  | v4 a => rfl
  | v6 a =>
    simp only [toCanonical]
    cases h : a.toIpv4Mapped with
    | none => rfl
    | some b => exact mapped_octets h

theorem toIpv4Mapped_toIpv6Mapped (a : Ipv4Addr) : a.toIpv6Mapped.toIpv4Mapped = some a := by
  have htake : a.toIpv6Mapped.octets.toList.take 12 = Ipv4Addr.mappedPrefix.toList := by
    rw [Ipv4Addr.toIpv6Mapped_octets]
    exact List.take_left' (by simp)
  have hsome : ∃ b, a.toIpv6Mapped.toIpv4Mapped = some b := by
    rw [Ipv6Addr.toIpv4Mapped,if_pos htake]
    exact ⟨_,rfl⟩
  obtain ⟨b,hb⟩ := hsome
  have hoctets := mapped_octets hb
  rw [Ipv4Addr.toIpv6Mapped_octets,Ipv4Addr.toIpv6Mapped_octets] at hoctets
  have hlist := List.append_cancel_left hoctets
  have hab : b = a := by
    cases a
    cases b
    exact congrArg Ipv4Addr.mk (Vector.toList_inj.mp hlist)
  rw [hb,hab]

@[simp] theorem toCanonical_mapped (a : Ipv4Addr) :
    (IpAddr.v6 a.toIpv6Mapped).toCanonical = .v4 a := by
  simp only [toCanonical,toIpv4Mapped_toIpv6Mapped]

theorem toCanonical_toCanonical (ip : IpAddr) : ip.toCanonical.toCanonical = ip.toCanonical := by
  cases ip with
  | v4 a => rfl
  | v6 a =>
    simp only [toCanonical]
    cases h : a.toIpv4Mapped with
    | none => simp only [h]
    | some b => rfl

private theorem v6_of_octets16 (ip : IpAddr) : ∃ a : Ipv6Addr, a.octets.toList = ip.octets16 ∧
    (IpAddr.v6 a).toCanonical = ip.toCanonical := by
  cases ip with
  | v4 a => exact ⟨a.toIpv6Mapped,rfl,toCanonical_mapped a⟩
  | v6 a => exact ⟨a,rfl,rfl⟩

/-- Two addresses have the same sixteen bytes when they are one address up to the listener. -/
theorem octets16_eq_iff {ip ip' : IpAddr} :
    ip.octets16 = ip'.octets16 ↔ ip.toCanonical = ip'.toCanonical := by
  constructor
  · intro h
    obtain ⟨a,ha,hcanon⟩ := v6_of_octets16 ip
    obtain ⟨a',ha',hcanon'⟩ := v6_of_octets16 ip'
    have hlist : a.octets.toList = a'.octets.toList := by rw [ha,ha',h]
    have hsame : a = a' := by
      cases a
      cases a'
      exact congrArg Ipv6Addr.mk (Vector.toList_inj.mp hlist)
    rw [← hcanon,← hcanon',hsame]
  · intro h
    rw [← octets16_toCanonical ip,← octets16_toCanonical ip',h]

end IpAddr

namespace SocketAddr

def new : IpAddr → Nat → SocketAddr
  | .v4 ip, port => .v4 ip port
  | .v6 ip, port => .v6 ip port 0

def ip : SocketAddr → IpAddr
  | .v4 ip _ => .v4 ip
  | .v6 ip _ _ => .v6 ip

@[simp] theorem ip_v4 (ip : Ipv4Addr) (port : Nat) : (v4 ip port).ip = .v4 ip := rfl

@[simp] theorem ip_v6 (ip : Ipv6Addr) (port scopeId : Nat) : (v6 ip port scopeId).ip = .v6 ip := rfl

def port : SocketAddr → Nat
  | .v4 _ port => port
  | .v6 _ port _ => port

def scopeId : SocketAddr → Nat
  | .v4 _ _ => 0
  | .v6 _ _ scopeId => scopeId

/-- The port is a `u16`, the scope a `u32`. -/
structure InRange (addr : SocketAddr) : Prop where
  port : addr.port < 65536
  scopeId : addr.scopeId < 2^32

theorem new_inRange {ip : IpAddr} {port : Nat} (hport : port < 65536) : (new ip port).InRange := by
  cases ip with
  | v4 ip => exact ⟨hport,by simp [new,scopeId]⟩
  | v6 ip => exact ⟨hport,by simp [new,scopeId]⟩

def toText : SocketAddr → Text
  | .v4 ip port => ip.toText ++ ":".toList ++ natText port
  | .v6 ip port scopeId =>
    "[".toList ++ ip.toText ++ (if scopeId = 0 then [] else '%'::natText scopeId) ++ "]:".toList ++ natText port

theorem toText_visible (addr : SocketAddr) : ∀ c ∈ addr.toText, ¬isWhitespace c := by
  have hdigits : ∀ d < 16, ¬isWhitespace (Nat.digitChar d) := by decide
  have hmarks : ∀ marks ∈ [":".toList,"[".toList,"]:".toList], ∀ c ∈ marks, ¬isWhitespace c := by
    simp [isWhitespace]
  have hip (ip : IpAddr) {c : Char} (hc : c ∈ ip.toText) : ¬isWhitespace c := by
    rcases IpAddr.toText_chars hc with ⟨d,hd,rfl⟩ | rfl | rfl
    · exact hdigits d hd
    · decide
    · decide
  have hnumber {n : Nat} {c : Char} (hc : c ∈ natText n) : ¬isWhitespace c := by
    have hc := Char.isDigit_iff_toNat.mp (natText_isDigit hc)
    simp only [Char.reduceToNat] at hc
    simp only [isWhitespace,Bool.or_eq_true,Bool.and_eq_true,decide_eq_true_eq,beq_iff_eq]
    omega
  have hscope {n : Nat} {c : Char} (hc : c ∈ if n = 0 then [] else '%'::natText n) : ¬isWhitespace c := by
    split at hc
    · simp at hc
    · rcases List.mem_cons.mp hc with rfl | hc
      · decide
      · exact hnumber hc
  intro c hc
  cases addr with
  | v4 ip port =>
    simp only [toText,List.mem_append] at hc
    rcases hc with (hc | hc) | hc
    · exact hip (.v4 ip) hc
    · exact hmarks _ (by simp) c hc
    · exact hnumber hc
  | v6 ip port scopeId =>
    simp only [toText,List.mem_append] at hc
    rcases hc with (((hc | hc) | hc) | hc) | hc
    · exact hmarks _ (by simp) c hc
    · exact hip (.v6 ip) hc
    · exact hscope hc
    · exact hmarks _ (by simp) c hc
    · exact hnumber hc

end SocketAddr

example : (Ipv6Addr.ofSegments [0x2001,0xdb8,0,0,0,0,0,1]).toText = "2001:db8::1" := by decide

end Rmbtd
