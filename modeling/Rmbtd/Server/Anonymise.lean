import Rmbtd.Net.IpAddr

/-!
# Anonymised addresses

`anonymise_addr` of `server/mod.rs`, the client address in logs and events. It looks at the address
as the socket gives it, so an IPv4 client of a dual-stack listener has the label of the network
`::/48`, which all of them share.
-/

namespace Rmbtd

/-- Truncate an address: the last octet of IPv4, everything past the first 48 bits of IPv6. -/
def anonymiseAddr (addr : SocketAddr) : Text :=
  match addr.ip with
  | .v4 v4 =>
    natText (v4.octets.toList.getD 0 0).toNat ++ "." ++
      natText (v4.octets.toList.getD 1 0).toNat ++ "." ++
      natText (v4.octets.toList.getD 2 0).toNat ++ ".*"
  | .v6 v6 =>
    hexText (v6.segments.getD 0 0) ++ ":" ++ hexText (v6.segments.getD 1 0) ++ ":" ++
      hexText (v6.segments.getD 2 0) ++ ":*"

/-! ## Networks -/

/-- The first 24 bits of an IPv4 address, the first 48 bits of an IPv6 address. -/
inductive Network
  | v4 (bits : Bytes)
  | v6 (bits : Bytes)
deriving DecidableEq

def Ipv4Addr.network (a : Ipv4Addr) : Bytes := a.octets.toList.take 3

def Ipv6Addr.network (a : Ipv6Addr) : Bytes := a.octets.toList.take 6

/-- The network of an address as it is written. -/
def IpAddr.writtenNetwork : IpAddr → Network
  | .v4 a => .v4 a.network
  | .v6 a => .v6 a.network

/-- The network of an address; an IPv4-mapped IPv6 address counts as IPv4. -/
def IpAddr.network (ip : IpAddr) : Network := ip.toCanonical.writtenNetwork

/-! ## Labels -/

private theorem dot_not_mem_natText (n : Nat) : '.' ∉ natText n :=
  fun h => absurd (natText_isDigit h) (by decide)

private theorem not_mem_hexText {c : Char} (hc : ∀ d < 16, c ≠ Nat.digitChar d) (n : Nat) :
    c ∉ hexText n := by
  intro h
  obtain ⟨d,hd,rfl⟩ := hexText_digit h
  exact hc d hd rfl

private theorem fields_injective {sep : Char} {x y z x' y' z' rest : Text}
    (hx : sep ∉ x) (hy : sep ∉ y) (hz : sep ∉ z) (hx' : sep ∉ x') (hy' : sep ∉ y') (hz' : sep ∉ z')
    (h : x ++ sep::(y ++ sep::(z ++ sep::rest)) = x' ++ sep::(y' ++ sep::(z' ++ sep::rest))) :
    x = x' ∧ y = y' ∧ z = z' := by
  have hcut {a a' r r' : Text} (ha : sep ∉ a) (ha' : sep ∉ a') (h : a ++ sep::r = a' ++ sep::r') :
      a = a' ∧ r = r' := by
    have hsplit : splitOnce [sep] (a ++ sep::r) = some (a,r) := splitOnce_singleton.mpr ⟨rfl,ha⟩
    rw [h,splitOnce_singleton.mpr ⟨rfl,ha'⟩] at hsplit
    cases hsplit
    exact ⟨rfl,rfl⟩
  obtain ⟨h1,h⟩ := hcut hx hx' h
  obtain ⟨h2,h⟩ := hcut hy hy' h
  exact ⟨h1,h2,(hcut hz hz' h).1⟩

private theorem v4_label_iff (a b : Ipv4Addr) (p q : Nat) :
    anonymiseAddr (.v4 a p) = anonymiseAddr (.v4 b q) ↔ a.network = b.network := by
  let octet (a : Ipv4Addr) (i : Nat) := a.octets.toList.getD i 0
  have htake (a : Ipv4Addr) : a.network = [octet a 0,octet a 1,octet a 2] := by
    obtain ⟨⟨⟨l⟩,hl⟩⟩ := a
    match l, hl with
    | [_,_,_,_], _ => rfl
  have hdots (a : Ipv4Addr) (p : Nat) : anonymiseAddr (.v4 a p) = natText (octet a 0).toNat ++
      '.'::(natText (octet a 1).toNat ++ '.'::(natText (octet a 2).toNat ++ '.'::['*'])) := by
    simp [anonymiseAddr,octet]
  rw [htake,htake,hdots,hdots]
  constructor
  · intro h
    obtain ⟨h0,h1,h2⟩ := fields_injective (dot_not_mem_natText _) (dot_not_mem_natText _)
      (dot_not_mem_natText _) (dot_not_mem_natText _) (dot_not_mem_natText _)
      (dot_not_mem_natText _) h
    rw [UInt8.toNat_inj.mp (natText_injective h0),UInt8.toNat_inj.mp (natText_injective h1),
      UInt8.toNat_inj.mp (natText_injective h2)]
  · intro h
    simp only [List.cons.injEq,and_true] at h
    rw [h.1,h.2.1,h.2.2]

private theorem v6_label_iff (a b : Ipv6Addr) (p q i j : Nat) :
    anonymiseAddr (.v6 a p i) = anonymiseAddr (.v6 b q j) ↔ a.network = b.network := by
  have htake (a : Ipv6Addr) : a.network = [a.octets[0],a.octets[1],a.octets[2],a.octets[3],
      a.octets[4],a.octets[5]] := by
    obtain ⟨⟨⟨l⟩,hl⟩⟩ := a
    match l, hl with
    | [_,_,_,_,_,_,_,_,_,_,_,_,_,_,_,_], _ => rfl
  have hbytes {x y x' y' : UInt8} (h : x.toNat * 256 + y.toNat = x'.toNat * 256 + y'.toNat) :
      x = x' ∧ y = y' := by
    have hy := y.toNat_lt
    have hy' := y'.toNat_lt
    exact ⟨UInt8.toNat_inj.mp (by omega),UInt8.toNat_inj.mp (by omega)⟩
  have hcolons (a : Ipv6Addr) (p i : Nat) : anonymiseAddr (.v6 a p i) =
      hexText (a.octets[0].toNat * 256 + a.octets[1].toNat) ++
        ':'::(hexText (a.octets[2].toNat * 256 + a.octets[3].toNat) ++
          ':'::(hexText (a.octets[4].toNat * 256 + a.octets[5].toNat) ++ ':'::['*'])) := by
    simp [anonymiseAddr,Ipv6Addr.segments]
  have hcolon (n : Nat) : ':' ∉ hexText n := not_mem_hexText (by decide) n
  rw [htake,htake,hcolons,hcolons]
  constructor
  · intro h
    obtain ⟨h0,h1,h2⟩ := fields_injective (hcolon _) (hcolon _) (hcolon _) (hcolon _) (hcolon _)
      (hcolon _) h
    obtain ⟨e0,e1⟩ := hbytes (hexText_injective h0)
    obtain ⟨e2,e3⟩ := hbytes (hexText_injective h1)
    obtain ⟨e4,e5⟩ := hbytes (hexText_injective h2)
    rw [e0,e1,e2,e3,e4,e5]
  · intro h
    simp only [List.cons.injEq,and_true] at h
    rw [h.1,h.2.1,h.2.2.1,h.2.2.2.1,h.2.2.2.2.1,h.2.2.2.2.2]

private theorem label_ne (a : Ipv4Addr) (b : Ipv6Addr) (p q i : Nat) :
    anonymiseAddr (.v4 a p) ≠ anonymiseAddr (.v6 b q i) := by
  intro h
  have hdot : '.' ∈ anonymiseAddr (.v4 a p) := by simp [anonymiseAddr]
  have hno (n : Nat) : '.' ∉ hexText n := not_mem_hexText (by decide) n
  rw [h] at hdot
  simp [anonymiseAddr,hno] at hdot

/-- The label determines exactly the network of the address as it is written. -/
theorem anonymiseAddr_eq_iff (a b : SocketAddr) :
    anonymiseAddr a = anonymiseAddr b ↔ a.ip.writtenNetwork = b.ip.writtenNetwork := by
  cases a with
  | v4 a p => cases b with
    | v4 b q => simpa [IpAddr.writtenNetwork] using v4_label_iff a b p q
    | v6 b q j => simpa [IpAddr.writtenNetwork] using label_ne a b p q j
  | v6 a p i => cases b with
    | v4 b q => simpa [IpAddr.writtenNetwork] using (label_ne b a q p i).symm
    | v6 b q j => simpa [IpAddr.writtenNetwork] using v6_label_iff a b p q i j

/-! ## Clients of dual-stack listeners -/

def IpAddr.mapped : IpAddr → Option Ipv4Addr
  | .v4 _ => none
  | .v6 a => a.toIpv4Mapped

/-- An address that has neither the network of the client nor the label all mapped clients have. -/
def Apart (client : Ipv4Addr) : IpAddr → Prop
  | .v4 a => a.network ≠ client.network
  | .v6 a => a.network ≠ List.replicate 6 0

/-- Neither address is mapped, both are and lie in one network, or the other one is apart. -/
def Unmixed (a b : IpAddr) : Prop :=
  match a.mapped, b.mapped with
  | none, none => True
  | some x, some y => x.network = y.network
  | some x, none => Apart x b
  | none, some y => Apart y a

private theorem of_mapped {ip : IpAddr} {x : Ipv4Addr} (h : ip.mapped = some x) :
    ip.writtenNetwork = .v6 (List.replicate 6 0) ∧ ip.network = .v4 x.network := by
  cases ip with
  | v4 a => cases h
  | v6 a =>
    have hcanon : (IpAddr.v6 a).toCanonical = .v4 x := by
      simp only [IpAddr.toCanonical,show a.toIpv4Mapped = some x from h]
    refine ⟨?_,by rw [IpAddr.network,hcanon]; rfl⟩
    have hinitial : a.octets.toList.take 12 = Ipv4Addr.mappedPrefix.toList := by
      have h : a.toIpv4Mapped = some x := h
      unfold Ipv6Addr.toIpv4Mapped at h
      split at h
      · assumption
      · cases h
    have htake : a.octets.toList.take 6 = (a.octets.toList.take 12).take 6 := by
      rw [List.take_take]
      rfl
    rw [IpAddr.writtenNetwork,Ipv6Addr.network,htake,hinitial]
    rfl

private theorem of_not_mapped {ip : IpAddr} (h : ip.mapped = none) : ip.network = ip.writtenNetwork := by
  cases ip with
  | v4 a => rfl
  | v6 a =>
    have h : a.toIpv4Mapped = none := h
    simp only [IpAddr.network,IpAddr.toCanonical,h]

private theorem apart_iff {a b : IpAddr} {x : Ipv4Addr} (ha : a.mapped = some x) (hb : b.mapped = none) :
    (a.writtenNetwork = b.writtenNetwork ↔ a.network = b.network) ↔ Apart x b := by
  rw [(of_mapped ha).1,(of_mapped ha).2,of_not_mapped hb]
  cases b with
  | v4 b => simp [IpAddr.writtenNetwork,Apart,eq_comm]
  | v6 b => simp [IpAddr.writtenNetwork,Apart,eq_comm]

/-- Two clients have the same label exactly when they are in the same network, if and only if no
mapped address is mixed up with another one. -/
theorem anonymiseAddr_determines_iff (a b : SocketAddr) :
    (anonymiseAddr a = anonymiseAddr b ↔ a.ip.network = b.ip.network) ↔ Unmixed a.ip b.ip := by
  rw [anonymiseAddr_eq_iff]
  unfold Unmixed
  cases ha : a.ip.mapped with
  | none => cases hb : b.ip.mapped with
    | none => simp [of_not_mapped ha,of_not_mapped hb]
    | some y =>
      rw [eq_comm,eq_comm (a := a.ip.network)]
      exact apart_iff hb ha
  | some x => cases hb : b.ip.mapped with
    | none => exact apart_iff ha hb
    | some y =>
      rw [(of_mapped ha).1,(of_mapped ha).2,(of_mapped hb).1,(of_mapped hb).2]
      simp

/-- Two clients of a dual-stack listener in different networks have one label, and a client has
another label there than at an IPv4 listener. -/
theorem anonymiseAddr_merges_and_splits :
    let client : Ipv4Addr := ⟨#v[203,0,113,42]⟩
    let other : Ipv4Addr := ⟨#v[198,51,100,7]⟩
    let label (ip : IpAddr) := anonymiseAddr (.new ip 443)
    label (.v6 client.toIpv6Mapped) = label (.v6 other.toIpv6Mapped) ∧
      (IpAddr.v6 client.toIpv6Mapped).network ≠ (IpAddr.v6 other.toIpv6Mapped).network ∧
      label (.v6 client.toIpv6Mapped) ≠ label (.v4 client) ∧
      (IpAddr.v6 client.toIpv6Mapped).network = (IpAddr.v4 client).network := by
  decide

example : anonymiseAddr (.v4 ⟨#v[203,0,113,42]⟩ 8080) = "203.0.113.*" := by decide

end Rmbtd
