import Rmbtd.Net.IpAddr

/-!
# Address literals

The recursive-descent parser behind `FromStr` of Rust's `std::net` types. A reader consumes a
prefix of its input or fails without consuming anything.
-/

namespace Rmbtd.AddrParser

abbrev Reader (α : Type) := Text → Option (α × Text)

private def hexValue (c : Char) : Option Nat :=
  if c.isDigit then some (c.toNat - 48)
  else if 'a'.toNat ≤ c.toNat ∧ c.toNat ≤ 'f'.toNat then some (c.toNat - 87)
  else if 'A'.toNat ≤ c.toNat ∧ c.toNat ≤ 'F'.toNat then some (c.toNat - 55)
  else none

/-- `char::to_digit` for a radix of at most sixteen. -/
def toDigit (radix : Nat) (c : Char) : Option Nat := (hexValue c).filter fun d => d < radix

def readGivenChar (c : Char) : Reader Unit
  | d::rest => if d = c then some ((),rest) else none
  | [] => none

/-- An unsigned number below `bound`, of at most `maxDigits` digits where that is given. -/
def readNumber (radix : Nat) (maxDigits : Option Nat) (allowZeroPrefix : Bool) (bound : Nat) :
    Reader Nat := fun s =>
  let digits := (s.takeWhile fun c => (toDigit radix c).isSome).filterMap (toDigit radix)
  let value := digits.foldl (fun n d => n * radix + d) 0
  if maxDigits.any (fun limit => limit < digits.length) then none
  else if digits.length = 0 then none
  else if !allowZeroPrefix && s.head? == some '0' && 1 < digits.length then none
  else if bound ≤ value then none
  else some (value,s.drop digits.length)

def readSeparator {α : Type} (sep : Char) (index : Nat) (inner : Reader α) : Reader α := fun s =>
  if 0 < index then (readGivenChar sep s).bind fun p => inner p.2 else inner s

private def readOctet (index : Nat) : Reader UInt8 := fun s =>
  (readSeparator '.' index (readNumber 10 (some 3) false 256) s).map fun p => (UInt8.ofNat p.1,p.2)

def readIpv4Addr : Reader Ipv4Addr := fun s => do
  let (a,s) ← readOctet 0 s
  let (b,s) ← readOctet 1 s
  let (c,s) ← readOctet 2 s
  let (d,s) ← readOctet 3 s
  return (⟨#v[a,b,c,d]⟩,s)

private def ipv4Groups (a : Ipv4Addr) : List Nat :=
  let octet i := (a.octets.toList.getD i 0).toNat
  [octet 0 * 256 + octet 1,octet 2 * 256 + octet 3]

/-- Read up to `left` groups from position `index` on, and tell whether they end in an embedded
IPv4 address, for which two groups must be left. -/
def readGroups : Nat → Nat → Text → List Nat × Bool × Text
  | 0, _, s => ([],false,s)
  | left+1, index, s =>
    match (if 0 < left then readSeparator ':' index readIpv4Addr s else none) with
    | some (a,s) => (ipv4Groups a,true,s)
    | none =>
      match readSeparator ':' index (readNumber 16 (some 4) true 65536) s with
      | some (g,s) =>
        let (gs,ipv4,s) := readGroups left (index+1) s
        (g::gs,ipv4,s)
      | none => ([],false,s)

def readIpv6Addr : Reader Ipv6Addr := fun s =>
  let (head,headIpv4,s) := readGroups 8 0 s
  if head.length = 8 then some (.ofSegments head,s)
  else if headIpv4 then none
  else do
    let (_,s) ← readGivenChar ':' s
    let (_,s) ← readGivenChar ':' s
    let (tail,_,s) := readGroups (8 - (head.length + 1)) 0 s
    return (.ofSegments (head ++ List.replicate (8 - head.length - tail.length) 0 ++ tail),s)

def readIpAddr : Reader IpAddr := fun s =>
  match readIpv4Addr s with
  | some (a,s) => some (.v4 a,s)
  | none => (readIpv6Addr s).map fun p => (.v6 p.1,p.2)

def readPort : Reader Nat := fun s => do
  let (_,s) ← readGivenChar ':' s
  readNumber 10 none true 65536 s

private def readScopeId : Reader Nat := fun s => do
  let (_,s) ← readGivenChar '%' s
  readNumber 10 none true (2^32) s

def readSocketAddrV4 : Reader SocketAddr := fun s => do
  let (ip,s) ← readIpv4Addr s
  let (port,s) ← readPort s
  return (.v4 ip port,s)

def readSocketAddrV6 : Reader SocketAddr := fun s => do
  let (_,s) ← readGivenChar '[' s
  let (ip,s) ← readIpv6Addr s
  let (scopeId,s) := (readScopeId s).getD (0,s)
  let (_,s) ← readGivenChar ']' s
  let (port,s) ← readPort s
  return (.v6 ip port scopeId,s)

def parseWith {α : Type} (r : Reader α) (s : Text) : Option α :=
  match r s with
  | some (a,[]) => some a
  | _ => none

/-! ## Reading what was written -/

def EndsDigits (radix : Nat) (rest : Text) : Prop := ∀ c ∈ rest.head?, toDigit radix c = none

theorem toDigit_digitChar {radix d : Nat} (hradix : radix ≤ 16) (hd : d < radix) :
    toDigit radix (Nat.digitChar d) = some d := by
  have hall : ∀ d < 16, hexValue (Nat.digitChar d) = some d := by decide
  rw [toDigit,hall d (by omega),Option.filter_some,if_pos (decide_eq_true hd)]

private theorem takeWhile_digits {radix : Nat} {ds : List Nat} {rest : Text} (hradix : radix ≤ 16)
    (hds : ∀ d ∈ ds, d < radix) (hrest : EndsDigits radix rest) :
    (ds.map Nat.digitChar ++ rest).takeWhile (fun c => (toDigit radix c).isSome) =
      ds.map Nat.digitChar := by
  rw [List.takeWhile_append_of_pos]
  · cases rest with
    | nil => simp
    | cons c rest => simp [hrest c rfl]
  · intro c hc
    obtain ⟨d,hd,rfl⟩ := List.mem_map.mp hc
    rw [toDigit_digitChar hradix (hds d hd)]
    rfl

theorem readNumber_toDigits {radix n bound : Nat} {maxDigits : Option Nat} {rest : Text}
    (allowZeroPrefix : Bool) (hlow : 1 < radix) (hradix : radix ≤ 16) (hn : n < bound)
    (hmax : ∀ k ∈ maxDigits, 0 < k ∧ n < radix^k) (hrest : EndsDigits radix rest) :
    readNumber radix maxDigits allowZeroPrefix bound (Nat.toDigits radix n ++ rest) = some (n,rest) := by
  obtain ⟨ds,hds⟩ := exists_digitsOf hlow n
  have hdigits : (ds.map Nat.digitChar).filterMap (toDigit radix) = ds := by
    rw [List.filterMap_map]
    calc ds.filterMap (toDigit radix ∘ Nat.digitChar) = ds.filterMap some :=
          List.filterMap_congr fun d hd => toDigit_digitChar hradix (hds.small d hd)
      _ = ds := List.filterMap_some
  have hlimit : ¬maxDigits.any (fun limit => limit < ds.length) := by
    cases maxDigits with
    | none => simp
    | some k =>
      obtain ⟨hk,hnk⟩ := hmax k rfl
      have hle := hds.length_le k hk hnk
      simp only [Option.any_some,decide_eq_true_eq]
      omega
  have hne : ds.length ≠ 0 := by
    intro hzero
    have htext := hds.text
    rw [List.length_eq_zero_iff.mp hzero] at htext
    exact Nat.toDigits_ne_nil htext
  have hlead : ¬(!allowZeroPrefix && (ds.map Nat.digitChar ++ rest).head? == some '0' &&
      1 < ds.length) := by
    simp only [Bool.and_eq_true,decide_eq_true_eq,beq_iff_eq]
    rintro ⟨⟨-,hhead⟩,hlong⟩
    cases ds with
    | nil => exact absurd hlong (by simp)
    | cons d ds =>
      have hzero : d = 0 := by
        have hchar : ∀ d < 16, Nat.digitChar d = '0' → d = 0 := by decide
        have hsmall := hds.small d List.mem_cons_self
        exact hchar d (by omega) (Option.some.inj hhead)
      by_cases hpos : 0 < n
      · exact hds.lead hpos (by rw [hzero]; rfl)
      · have hsingle := hds.single (by omega)
        rw [hsingle] at hlong
        exact absurd hlong (by simp)
  have hbound : ¬bound ≤ n := Nat.not_le.mpr hn
  unfold readNumber
  dsimp only
  rw [hds.text,takeWhile_digits hradix hds.small hrest,hdigits,hds.value,if_neg hlimit,if_neg hne,
    if_neg hlead,if_neg hbound]
  simp

theorem endsDigits_cons {radix : Nat} {c : Char} {rest : Text} :
    EndsDigits radix (c::rest) ↔ toDigit radix c = none := by simp [EndsDigits]

theorem readSeparator_zero {α : Type} (sep : Char) (inner : Reader α) (s : Text) :
    readSeparator sep 0 inner s = inner s := rfl

theorem readSeparator_succ {α : Type} (sep : Char) (index : Nat) (inner : Reader α) (s : Text) :
    readSeparator sep (index+1) inner (sep::s) = inner s := by
  simp [readSeparator,readGivenChar]

private theorem readNumber_octet (b : UInt8) {rest : Text} (hrest : EndsDigits 10 rest) :
    readNumber 10 (some 3) false 256 (natText b.toNat ++ rest) = some (b.toNat,rest) := by
  apply readNumber_toDigits _ (by decide) (by decide) b.toNat_lt ?_ hrest
  rintro _ ⟨⟩
  have hb := b.toNat_lt
  exact ⟨by decide,by omega⟩

private theorem ipv4_octets (a : Ipv4Addr) : ∃ b c d e, a = ⟨#v[b,c,d,e]⟩ := by
  refine ⟨a.octets[0],a.octets[1],a.octets[2],a.octets[3],congrArg Ipv4Addr.mk ?_⟩
  apply Vector.ext
  intro i hi
  rcases (show i = 0 ∨ i = 1 ∨ i = 2 ∨ i = 3 by omega) with rfl | rfl | rfl | rfl
  all_goals rfl

theorem readIpv4Addr_toText (a : Ipv4Addr) {rest : Text} (hrest : EndsDigits 10 rest) :
    readIpv4Addr (a.toText ++ rest) = some (a,rest) := by
  have hdot (s : Text) : EndsDigits 10 ('.'::s) := endsDigits_cons.mpr (by decide)
  have hfirst (b : UInt8) (s : Text) : readOctet 0 (natText b.toNat ++ '.'::s) = some (b,'.'::s) := by
    rw [readOctet,readSeparator_zero,readNumber_octet b (hdot s),Option.map_some,UInt8.ofNat_toNat]
  have hnext (index : Nat) (b : UInt8) {s : Text} (hs : EndsDigits 10 s) :
      readOctet (index+1) ('.'::(natText b.toNat ++ s)) = some (b,s) := by
    rw [readOctet,readSeparator_succ,readNumber_octet b hs,Option.map_some,UInt8.ofNat_toNat]
  obtain ⟨b,c,d,e,rfl⟩ := ipv4_octets a
  have htext : (Ipv4Addr.mk #v[b,c,d,e]).toText ++ rest = natText b.toNat ++ '.'::(natText c.toNat ++
      '.'::(natText d.toNat ++ '.'::(natText e.toNat ++ rest))) := by
    simp [Ipv4Addr.toText]
  simp [readIpv4Addr,htext,hfirst,hnext _ _ (hdot _),hnext _ _ hrest]

theorem readIpv4Addr_of_noDot {s : Text} (hs : '.' ∉ s) : readIpv4Addr s = none := by
  unfold readIpv4Addr
  cases hfirst : readOctet 0 s with
  | none => rfl
  | some p =>
    obtain ⟨b,rest⟩ := p
    have hrest : '.' ∉ rest := by
      rw [readOctet,readSeparator_zero] at hfirst
      obtain ⟨⟨n,t⟩,hread,heq⟩ := Option.map_eq_some_iff.mp hfirst
      cases heq
      intro hmem
      unfold readNumber at hread
      dsimp only at hread
      split at hread
      · cases hread
      split at hread
      · cases hread
      split at hread
      · cases hread
      split at hread
      · cases hread
      · cases hread
        exact hs (List.mem_of_mem_drop hmem)
    have hsecond : readOctet 1 rest = none := by
      have hgiven : readGivenChar '.' rest = none := by
        cases rest with
        | nil => rfl
        | cons c rest =>
          apply if_neg
          rintro rfl
          exact hrest List.mem_cons_self
      simp [readOctet,readSeparator,hgiven]
    simp [hsecond]

/-! ### Groups -/

def EndsGroups (rest : Text) : Prop :=
  EndsDigits 16 rest ∧ ∀ s, rest = ':'::s → EndsDigits 16 s

private theorem readNumber_endsDigits {radix bound : Nat} {maxDigits : Option Nat} {rest : Text}
    (allowZeroPrefix : Bool) (h : EndsDigits radix rest) :
    readNumber radix maxDigits allowZeroPrefix bound rest = none := by
  have hdigits : (rest.takeWhile fun c => (toDigit radix c).isSome) = [] := by
    cases rest with
    | nil => rfl
    | cons c rest => simp [h c rfl]
  simp [readNumber,hdigits]

private theorem readNumber_group {g : Nat} (hg : g < 65536) {rest : Text} (hrest : EndsDigits 16 rest) :
    readNumber 16 (some 4) true 65536 (hexText g ++ rest) = some (g,rest) := by
  apply readNumber_toDigits _ (by decide) (by decide) hg ?_ hrest
  rintro _ ⟨⟩
  exact ⟨by decide,by omega⟩

private theorem readSeparator_none {α : Type} {index : Nat} {inner : Reader α} {rest : Text}
    (h : inner rest = none) (hcolon : ∀ s, rest = ':'::s → inner s = none) :
    readSeparator ':' index inner rest = none := by
  cases index with
  | zero => exact h
  | succ index =>
    cases rest with
    | nil => rfl
    | cons c rest =>
      by_cases hc : c = ':'
      · subst hc
        rw [readSeparator_succ]
        exact hcolon rest rfl
      · simp [readSeparator,readGivenChar,hc]

private theorem EndsDigits.decimal {rest : Text} (h : EndsDigits 16 rest) : EndsDigits 10 rest := by
  intro c hc
  have hnone := h c hc
  unfold toDigit at hnone ⊢
  cases hvalue : hexValue c with
  | none => rfl
  | some d =>
    rw [hvalue,Option.filter_some] at hnone
    have hlarge : ¬d < 16 := by
      intro hd
      rw [if_pos (decide_eq_true hd)] at hnone
      cases hnone
    have hd : ¬decide (d < 10) = true := by
      rw [decide_eq_true_eq]
      omega
    rw [Option.filter_some,if_neg hd]

private theorem readIpv4Addr_endsDigits {rest : Text} (h : EndsDigits 10 rest) :
    readIpv4Addr rest = none := by
  have hoctet : readOctet 0 rest = none := by
    rw [readOctet,readSeparator_zero,readNumber_endsDigits _ h]
    rfl
  simp [readIpv4Addr,hoctet]

theorem readGroups_end {left index : Nat} {rest : Text} (hrest : EndsGroups rest) :
    readGroups left index rest = ([],false,rest) := by
  have hgroup : readSeparator ':' index (readNumber 16 (some 4) true 65536) rest = none :=
    readSeparator_none (readNumber_endsDigits _ hrest.1) fun s hs =>
      readNumber_endsDigits _ (hrest.2 s hs)
  have hipv4 : readSeparator ':' index readIpv4Addr rest = none :=
    readSeparator_none (readIpv4Addr_endsDigits hrest.1.decimal) fun s hs =>
      readIpv4Addr_endsDigits (hrest.2 s hs).decimal
  cases left with
  | zero => rfl
  | succ left => simp [readGroups,hgroup,hipv4]

private theorem dot_not_mem_hexText (g : Nat) : '.' ∉ hexText g := by
  intro h
  obtain ⟨d,hd,hc⟩ := hexText_digit h
  revert d
  decide

private theorem dot_not_mem_tail (gs : List Nat) : '.' ∉ gs.flatMap fun g => ':'::hexText g := by
  intro h
  obtain ⟨g,-,hmem⟩ := List.mem_flatMap.mp h
  rcases List.mem_cons.mp hmem with hc | hmem
  · revert hc
    decide
  · exact dot_not_mem_hexText g hmem

private theorem readGroups_step {left index g : Nat} {s rest : Text}
    (hs : readSeparator ':' index (readNumber 16 (some 4) true 65536) s = some (g,rest))
    (hipv4 : readSeparator ':' index readIpv4Addr s = none) : readGroups (left+1) index s =
      (g::(readGroups left (index+1) rest).1,(readGroups left (index+1) rest).2) := by
  simp [readGroups,hs,hipv4]

private theorem endsDigits_tail {gs : List Nat} {rest : Text} (hrest : EndsDigits 16 rest) :
    EndsDigits 16 ((gs.flatMap fun g => ':'::hexText g) ++ rest) := by
  cases gs with
  | nil => exact hrest
  | cons g gs => exact endsDigits_cons.mpr (by decide)

private theorem readGroups_tail {gs : List Nat} {left index : Nat} {rest : Text} (hlen : gs.length ≤ left)
    (hgs : ∀ g ∈ gs, g < 65536) (hrest : EndsGroups rest) (hdot : '.' ∉ rest) :
    readGroups left (index+1) ((gs.flatMap fun g => ':'::hexText g) ++ rest) = (gs,false,rest) := by
  induction gs generalizing left index with
  | nil => exact readGroups_end hrest
  | cons g gs ih =>
    cases left with
    | zero => exact absurd hlen (by simp)
    | succ left =>
      have hg := hgs g List.mem_cons_self
      have hnodot : '.' ∉ hexText g ++ ((gs.flatMap fun g => ':'::hexText g) ++ rest) := by
        simp only [List.mem_append,not_or]
        exact ⟨dot_not_mem_hexText g,dot_not_mem_tail gs,hdot⟩
      rw [List.flatMap_cons,List.append_assoc,List.cons_append]
      have hread : readSeparator ':' (index+1) (readNumber 16 (some 4) true 65536)
          (':'::(hexText g ++ ((gs.flatMap fun g => ':'::hexText g) ++ rest))) =
          some (g,(gs.flatMap fun g => ':'::hexText g) ++ rest) := by
        rw [readSeparator_succ,readNumber_group hg (endsDigits_tail hrest.1)]
      have hipv4 : readSeparator ':' (index+1) readIpv4Addr
          (':'::(hexText g ++ ((gs.flatMap fun g => ':'::hexText g) ++ rest))) = none := by
        rw [readSeparator_succ,readIpv4Addr_of_noDot hnodot]
      rw [readGroups_step hread hipv4,ih (Nat.le_of_succ_le_succ hlen)
        fun g hg => hgs g (List.mem_cons_of_mem _ hg)]

theorem readGroups_joinGroups {gs : List Nat} {left : Nat} {rest : Text} (hlen : gs.length ≤ left)
    (hgs : ∀ g ∈ gs, g < 65536) (hrest : EndsGroups rest) (hdot : '.' ∉ rest) :
    readGroups left 0 (Ipv6Addr.joinGroups gs ++ rest) = (gs,false,rest) := by
  cases gs with
  | nil => exact readGroups_end hrest
  | cons g gs =>
    cases left with
    | zero => exact absurd hlen (by simp)
    | succ left =>
      have hg := hgs g List.mem_cons_self
      have hnodot : '.' ∉ hexText g ++ ((gs.flatMap fun g => ':'::hexText g) ++ rest) := by
        simp only [List.mem_append,not_or]
        exact ⟨dot_not_mem_hexText g,dot_not_mem_tail gs,hdot⟩
      rw [Ipv6Addr.joinGroups,List.append_assoc]
      have hread : readSeparator ':' 0 (readNumber 16 (some 4) true 65536)
          (hexText g ++ ((gs.flatMap fun g => ':'::hexText g) ++ rest)) =
          some (g,(gs.flatMap fun g => ':'::hexText g) ++ rest) := by
        rw [readSeparator_zero,readNumber_group hg (endsDigits_tail hrest.1)]
      have hipv4 : readSeparator ':' 0 readIpv4Addr
          (hexText g ++ ((gs.flatMap fun g => ':'::hexText g) ++ rest)) = none := by
        rw [readSeparator_zero,readIpv4Addr_of_noDot hnodot]
      rw [readGroups_step hread hipv4,readGroups_tail (Nat.le_of_succ_le_succ hlen)
        (fun g hg => hgs g (List.mem_cons_of_mem _ hg)) hrest hdot]

private theorem readGroups_ipv4 {left index : Nat} (a : Ipv4Addr) {rest : Text}
    (hrest : EndsDigits 10 rest) : readGroups (left+2) (index+1) (':'::(a.toText ++ rest)) =
      (ipv4Groups a,true,rest) := by
  have hipv4 : readSeparator ':' (index+1) readIpv4Addr (':'::(a.toText ++ rest)) = some (a,rest) := by
    rw [readSeparator_succ,readIpv4Addr_toText a hrest]
  simp [readGroups,hipv4]

/-! ### Addresses -/

/-- Neither an address nor a group list goes on here. -/
structure EndsAddr (rest : Text) : Prop where
  groups : EndsGroups rest
  noDot : '.' ∉ rest

private theorem readGivenChar_self (c : Char) (s : Text) : readGivenChar c (c::s) = some ((),s) :=
  if_pos rfl

private theorem endsGroups_colons {rest : Text} : EndsGroups (':':: ':'::rest) := by
  refine ⟨endsDigits_cons.mpr (by decide),?_⟩
  rintro _ ⟨⟩
  exact endsDigits_cons.mpr (by decide)

private theorem mapped_octets (b c d e : UInt8) : (Ipv4Addr.mk #v[b,c,d,e]).toIpv6Mapped =
    ⟨#v[0,0,0,0,0,0,0,0,0,0,0xff,0xff,b,c,d,e]⟩ := by
  apply congrArg Ipv6Addr.mk
  apply Vector.toList_inj.mp
  rw [Vector.toList_append]
  simp [Ipv4Addr.mappedPrefix]

private theorem mapped_segments (b c d e : UInt8) : (Ipv4Addr.mk #v[b,c,d,e]).toIpv6Mapped.segments =
    List.replicate 5 0 ++ (65535::ipv4Groups ⟨#v[b,c,d,e]⟩) := by
  have hones : (255 : UInt8).toNat * 256 + (255 : UInt8).toNat = 65535 := by decide
  rw [mapped_octets]
  apply List.ext_getElem?
  intro i
  by_cases hi : i < 8
  · rw [Ipv6Addr.getElem?_segments _ hi]
    match i, hi with
    | 0, _ => simp
    | 1, _ => simp
    | 2, _ => simp
    | 3, _ => simp
    | 4, _ => simp
    | 5, _ => exact congrArg some hones
    | 6, _ => simp [ipv4Groups]
    | 7, _ => simp [ipv4Groups]
  · have hright : (List.replicate 5 0 ++ (65535::ipv4Groups ⟨#v[b,c,d,e]⟩)).length = 8 := by
      simp [ipv4Groups]
    rw [List.getElem?_eq_none (by rw [Ipv6Addr.segments_length]; omega),
      List.getElem?_eq_none (by omega)]

private theorem mapped_ofSegments (a : Ipv4Addr) :
    Ipv6Addr.ofSegments (List.replicate 5 0 ++ (65535::ipv4Groups a)) = a.toIpv6Mapped := by
  obtain ⟨b,c,d,e,rfl⟩ := ipv4_octets a
  rw [← mapped_segments,Ipv6Addr.ofSegments_segments]

private theorem dot_not_mem_joinGroups (gs : List Nat) : '.' ∉ Ipv6Addr.joinGroups gs := by
  cases gs with
  | nil => simp [Ipv6Addr.joinGroups]
  | cons g gs =>
    simp only [Ipv6Addr.joinGroups,List.mem_append,not_or]
    exact ⟨dot_not_mem_hexText g,dot_not_mem_tail gs⟩

private theorem readIpv6Addr_compressed {head tail : List Nat} {ipv4 : Bool} {s t rest : Text}
    (hhead : head.length ≠ 8) (hfirst : readGroups 8 0 s = (head,false,':':: ':'::t))
    (hsecond : readGroups (7 - head.length) 0 t = (tail,ipv4,rest)) : readIpv6Addr s =
      some (.ofSegments (head ++ List.replicate (8 - head.length - tail.length) 0 ++ tail),rest) := by
  simp [readIpv6Addr,hfirst,hhead,readGivenChar_self,hsecond]

theorem readIpv6Addr_toText (a : Ipv6Addr) {rest : Text} (hrest : EndsAddr rest) :
    readIpv6Addr (a.toText ++ rest) = some (a,rest) := by
  cases hmapped : a.toIpv4Mapped with
  | some b =>
    have hab : b.toIpv6Mapped = a := by
      have hcanonical : (IpAddr.v6 a).toCanonical = .v4 b := by simp only [IpAddr.toCanonical,hmapped]
      have hoctets := IpAddr.octets16_toCanonical (.v6 a)
      rw [hcanonical] at hoctets
      cases a
      exact congrArg Ipv6Addr.mk (Vector.toList_inj.mp hoctets)
    have htext : a.toText ++ rest = ':':: ':'::("ffff".toList ++ ':'::(b.toText ++ rest)) := by
      simp [Ipv6Addr.toText,hmapped]
    have hfirst : readGroups 8 0 (':':: ':'::("ffff".toList ++ ':'::(b.toText ++ rest))) =
        ([],false,':':: ':'::("ffff".toList ++ ':'::(b.toText ++ rest))) := readGroups_end endsGroups_colons
    have hgroup : readSeparator ':' 0 (readNumber 16 (some 4) true 65536)
        ("ffff".toList ++ ':'::(b.toText ++ rest)) = some (65535,':'::(b.toText ++ rest)) := by
      have hffff : "ffff".toList = hexText 65535 := by decide
      rw [readSeparator_zero,hffff]
      exact readNumber_group (by decide) (endsDigits_cons.mpr (by decide))
    have hnoIpv4 : readSeparator ':' 0 readIpv4Addr ("ffff".toList ++ ':'::(b.toText ++ rest)) = none :=
      readIpv4Addr_endsDigits (endsDigits_cons.mpr (by decide))
    have hsecond : readGroups 7 0 ("ffff".toList ++ ':'::(b.toText ++ rest)) =
        (65535::ipv4Groups b,true,rest) := by
      rw [readGroups_step hgroup hnoIpv4,readGroups_ipv4 b hrest.groups.1.decimal]
    rw [htext,readIpv6Addr_compressed (by decide) hfirst hsecond,← hab,← mapped_ofSegments]
    rfl
  | none =>
    rcases Ipv6Addr.toText_groups hmapped with htext | ⟨head,tail,hshort,hsegments,htext⟩
    · have hread : readGroups 8 0 (a.toText ++ rest) = (a.segments,false,rest) := by
        rw [htext]
        exact readGroups_joinGroups (le_of_eq a.segments_length) (fun _ => Ipv6Addr.segments_lt)
          hrest.groups hrest.noDot
      simp [readIpv6Addr,hread,a.segments_length,Ipv6Addr.ofSegments_segments]
    · have hhead : ∀ g ∈ head, g < 65536 := fun g hg => Ipv6Addr.segments_lt (by
        rw [hsegments]
        simp [hg])
      have htail : ∀ g ∈ tail, g < 65536 := fun g hg => Ipv6Addr.segments_lt (by
        rw [hsegments]
        simp [hg])
      have hfirst : readGroups 8 0 (a.toText ++ rest) =
          (head,false,':':: ':'::(Ipv6Addr.joinGroups tail ++ rest)) := by
        have hjoin : a.toText ++ rest =
            Ipv6Addr.joinGroups head ++ ':':: ':'::(Ipv6Addr.joinGroups tail ++ rest) := by simp [htext]
        rw [hjoin]
        apply readGroups_joinGroups (by omega) hhead endsGroups_colons
        have hdot := dot_not_mem_joinGroups tail
        simp [hdot,hrest.noDot]
      have hsecond : readGroups (7 - head.length) 0 (Ipv6Addr.joinGroups tail ++ rest) =
          (tail,false,rest) := readGroups_joinGroups (by omega) htail hrest.groups hrest.noDot
      rw [readIpv6Addr_compressed (by omega) hfirst hsecond,← hsegments,Ipv6Addr.ofSegments_segments]

end Rmbtd.AddrParser

namespace Rmbtd

open AddrParser

def parseIpv4Addr (s : Text) : Option Ipv4Addr :=
  if 15 < s.length then none else parseWith readIpv4Addr s

def parseIpv6Addr (s : Text) : Option Ipv6Addr := parseWith readIpv6Addr s

def parseIpAddr (s : Text) : Option IpAddr := parseWith readIpAddr s

def parseSocketAddr (s : Text) : Option SocketAddr :=
  parseWith (fun s => (readSocketAddrV4 s).orElse fun _ => readSocketAddrV6 s) s

/-! ## Round trips -/

private theorem natText_dotless (n : Nat) : '.' ∉ natText n := by
  intro h
  have hdigit := natText_isDigit h
  revert hdigit
  decide

private theorem endsAddr_nil : EndsAddr [] :=
  ⟨⟨by simp [EndsDigits],by simp⟩,by simp⟩

private theorem endsAddr_cons {c : Char} {rest : Text} (hc : toDigit 16 c = none) (hcolon : c ≠ ':')
    (hdot : '.' ∉ c::rest) : EndsAddr (c::rest) := by
  refine ⟨⟨endsDigits_cons.mpr hc,?_⟩,hdot⟩
  rintro s ⟨⟩
  exact absurd rfl hcolon

private theorem readIpv4Addr_noDigit {c : Char} {s : Text} (hc : toDigit 10 c = none) :
    readIpv4Addr (c::s) = none := readIpv4Addr_endsDigits (endsDigits_cons.mpr hc)

private theorem readIpv4Addr_ipv6 (a : Ipv6Addr) : readIpv4Addr a.toText = none := by
  cases hmapped : a.toIpv4Mapped with
  | some b =>
    have htext : a.toText = ':'::(":ffff:".toList ++ b.toText) := by simp [Ipv6Addr.toText,hmapped]
    rw [htext]
    exact readIpv4Addr_noDigit (by decide)
  | none =>
    apply readIpv4Addr_of_noDot
    rcases Ipv6Addr.toText_groups hmapped with htext | ⟨head,tail,-,-,htext⟩
    · rw [htext]
      exact dot_not_mem_joinGroups _
    · have hhead := dot_not_mem_joinGroups head
      have htail := dot_not_mem_joinGroups tail
      simp [htext,hhead,htail]

theorem parseIpAddr_toText (ip : IpAddr) : parseIpAddr ip.toText = some ip := by
  cases ip with
  | v4 a =>
    have hread : readIpv4Addr (a.toText ++ []) = some (a,[]) := readIpv4Addr_toText a (by simp [EndsDigits])
    rw [List.append_nil] at hread
    simp [parseIpAddr,parseWith,readIpAddr,IpAddr.toText,hread]
  | v6 a =>
    have hread := readIpv6Addr_toText a endsAddr_nil
    rw [List.append_nil] at hread
    simp [parseIpAddr,parseWith,readIpAddr,IpAddr.toText,readIpv4Addr_ipv6,hread]

private theorem readPort_text {port : Nat} (hport : port < 65536) :
    readPort (':'::natText port) = some (port,[]) := by
  have hread : readNumber 10 none true 65536 (natText port ++ []) = some (port,[]) :=
    readNumber_toDigits _ (by decide) (by decide) hport (by simp) (by simp [EndsDigits])
  rw [List.append_nil] at hread
  simp [readPort,readGivenChar,hread]

private theorem readScopeId_text {n : Nat} (hn : n < 2^32) (rest : Text) :
    (readScopeId ((if n = 0 then [] else '%'::natText n) ++ ']'::rest)).getD
      (0,(if n = 0 then [] else '%'::natText n) ++ ']'::rest) = (n,']'::rest) := by
  by_cases hzero : n = 0
  · have hread : readScopeId (']'::rest) = none := rfl
    simp [hzero,hread]
  · have hread : readNumber 10 none true (2^32) (natText n ++ ']'::rest) = some (n,']'::rest) :=
      readNumber_toDigits _ (by decide) (by decide) hn (by simp) (endsDigits_cons.mpr (by decide))
    have hscope : readScopeId ('%'::(natText n ++ ']'::rest)) = some (n,']'::rest) := hread
    simp [hzero,hscope]

private theorem endsAddr_scope (n port : Nat) :
    EndsAddr ((if n = 0 then [] else '%'::natText n) ++ ']'::(':'::natText port)) := by
  have hn := natText_dotless n
  have hport := natText_dotless port
  split
  · exact endsAddr_cons (by decide) (by decide) (by simp [hport])
  · exact endsAddr_cons (by decide) (by decide) (by simp [hn,hport])

/-- The text of a socket address is read back. -/
theorem parseSocketAddr_toText {addr : SocketAddr} (haddr : addr.InRange) :
    parseSocketAddr addr.toText = some addr := by
  cases addr with
  | v4 a port =>
    have htext : (SocketAddr.v4 a port).toText = a.toText ++ ':'::natText port := by
      simp [SocketAddr.toText]
    have hread : readIpv4Addr (a.toText ++ ':'::natText port) = some (a,':'::natText port) :=
      readIpv4Addr_toText a (endsDigits_cons.mpr (by decide))
    have hport := readPort_text haddr.port
    rw [SocketAddr.port] at hport
    rw [htext]
    simp [parseSocketAddr,parseWith,readSocketAddrV4,hread,hport]
  | v6 a port scopeId =>
    have htext : (SocketAddr.v6 a port scopeId).toText = '['::(a.toText ++
        ((if scopeId = 0 then [] else '%'::natText scopeId) ++ ']'::(':'::natText port))) := by
      simp [SocketAddr.toText]
    have hscope := readScopeId_text haddr.scopeId (':'::natText port)
    have hread := readIpv6Addr_toText a (endsAddr_scope scopeId port)
    have hport := readPort_text haddr.port
    rw [SocketAddr.scopeId] at hscope
    rw [SocketAddr.port] at hport
    rw [htext]
    generalize (if scopeId = 0 then [] else '%'::natText scopeId) ++ ']'::(':'::natText port) = rest
      at hscope hread
    have hv4 : readSocketAddrV4 ('['::(a.toText ++ rest)) = none := by
      simp [readSocketAddrV4,readIpv4Addr_noDigit (show toDigit 10 '[' = none by decide)]
    simp [parseSocketAddr,parseWith,hv4,readSocketAddrV6,readGivenChar,hread,hscope,hport]

private theorem readNumber_lt {radix bound n : Nat} {maxDigits : Option Nat} {allowZeroPrefix : Bool}
    {s rest : Text} (h : readNumber radix maxDigits allowZeroPrefix bound s = some (n,rest)) : n < bound := by
  unfold readNumber at h
  dsimp only at h
  repeat' split at h
  · cases h
  · cases h
  · cases h
  · cases h
  · next hlt =>
    cases h
    exact Nat.lt_of_not_le hlt

private theorem readPort_lt {s rest : Text} {port : Nat} (h : readPort s = some (port,rest)) : port < 65536 := by
  obtain ⟨_,-,h⟩ := Option.bind_eq_some_iff.mp h
  exact readNumber_lt h

private theorem readScopeId_lt (s : Text) : ((readScopeId s).getD (0,s)).1 < 2^32 := by
  cases h : readScopeId s with
  | none => exact Nat.two_pow_pos 32
  | some p =>
    obtain ⟨_,-,h⟩ := Option.bind_eq_some_iff.mp h
    exact readNumber_lt h

theorem parseSocketAddr_inRange {s : Text} {addr : SocketAddr} (h : parseSocketAddr s = some addr) :
    addr.InRange := by
  have hv4 {t rest : Text} {addr : SocketAddr} (h : readSocketAddrV4 t = some (addr,rest)) :
      addr.InRange := by
    obtain ⟨⟨ip,t₁⟩,-,h⟩ := Option.bind_eq_some_iff.mp h
    obtain ⟨⟨port,t₂⟩,hport,h⟩ := Option.bind_eq_some_iff.mp h
    cases h
    exact ⟨readPort_lt hport,Nat.two_pow_pos 32⟩
  have hv6 {t rest : Text} {addr : SocketAddr} (h : readSocketAddrV6 t = some (addr,rest)) :
      addr.InRange := by
    obtain ⟨⟨_,t₁⟩,-,h⟩ := Option.bind_eq_some_iff.mp h
    obtain ⟨⟨ip,t₂⟩,-,h⟩ := Option.bind_eq_some_iff.mp h
    obtain ⟨⟨_,t₃⟩,-,h⟩ := Option.bind_eq_some_iff.mp h
    obtain ⟨⟨port,t₄⟩,hport,h⟩ := Option.bind_eq_some_iff.mp h
    cases h
    exact ⟨readPort_lt hport,readScopeId_lt t₂⟩
  unfold parseSocketAddr parseWith at h
  dsimp only at h
  split at h
  · next hread =>
    cases h
    cases hread₄ : readSocketAddrV4 s with
    | some r =>
      rw [hread₄] at hread
      cases hread
      exact hv4 hread₄
    | none =>
      rw [hread₄] at hread
      exact hv6 hread
  · cases h

/-! ## Blank text -/

private theorem hexValue_whitespace {c : Char} (h : isWhitespace c) (radix : Nat) :
    toDigit radix c = none ∧ c ≠ ':' := by
  have hn : ¬(48 ≤ c.toNat ∧ c.toNat ≤ 58) ∧ ¬(97 ≤ c.toNat ∧ c.toNat ≤ 102) ∧
      ¬(65 ≤ c.toNat ∧ c.toNat ≤ 70) := by
    simp only [isWhitespace,Bool.or_eq_true,Bool.and_eq_true,decide_eq_true_eq,beq_iff_eq] at h
    omega
  have hdigit : ¬c.isDigit := by
    rw [Char.isDigit_iff_toNat]
    simp only [Char.reduceToNat]
    omega
  constructor
  · have hnone : AddrParser.hexValue c = none := by
      simp only [AddrParser.hexValue,Char.reduceToNat]
      rw [if_neg hdigit,if_neg (by omega),if_neg (by omega)]
    rw [toDigit,hnone]
    rfl
  · rintro rfl
    exact hn.1 (by decide)

private theorem readNumber_blank {s : Text} (h : ∀ c ∈ s, isWhitespace c) (radix : Nat)
    (maxDigits : Option Nat) (allowZeroPrefix : Bool) (bound : Nat) :
    readNumber radix maxDigits allowZeroPrefix bound s = none := by
  have hdigits : (s.takeWhile fun c => (toDigit radix c).isSome) = [] := by
    cases s with
    | nil => rfl
    | cons c s => simp [(hexValue_whitespace (h c List.mem_cons_self) radix).1]
  simp [readNumber,hdigits]

theorem parseIpAddr_blank {s : Text} (h : ∀ c ∈ s, isWhitespace c) : parseIpAddr s = none := by
  have hv4 : readIpv4Addr s = none := by
    have hoctet : readOctet 0 s = none := by
      simp [readOctet,readSeparator,readNumber_blank h]
    simp [readIpv4Addr,hoctet]
  have hcolon : readGivenChar ':' s = none := by
    cases s with
    | nil => rfl
    | cons c s => exact if_neg (hexValue_whitespace (h c List.mem_cons_self) 16).2
  have hgroups : readGroups 8 0 s = ([],false,s) := by
    simp [readGroups,readSeparator,hv4,readNumber_blank h]
  have hv6 : readIpv6Addr s = none := by simp [readIpv6Addr,hgroups,hcolon]
  simp [parseIpAddr,parseWith,readIpAddr,hv4,hv6]

example : (parseIpAddr "::ffff:62.1.2.3").map IpAddr.toCanonical = parseIpAddr "62.1.2.3" := by decide
example : parseIpAddr "5" = none := by decide

end Rmbtd
