import Rmbtd.Protocol.Validation
import Mathlib.Algebra.Order.Group.Abs
import Mathlib.Algebra.Order.Group.Int

/-!
# The time field of v2 tokens

`reconstruct_time` inverts the truncation of a start time to 32 bits, as long as the clock is less
than half a period away. Its arithmetic is compared with the one that checks for overflow.
-/

namespace Rmbtd

/-! ## Overflow -/

def checkedSub (a b : Int64) : Option Int64 :=
  let n := a.toInt - b.toInt
  if -2^63 ≤ n ∧ n < 2^63 then some (a - b) else none

def checkedAdd (a b : Int64) : Option Int64 :=
  let n := a.toInt + b.toInt
  if -2^63 ≤ n ∧ n < 2^63 then some (a + b) else none

/-- `reconstruct_time` with overflow checks. -/
def reconstructTimeChecked (timeU32 : UInt32) (now : Int64) : Option Int64 := do
  let period : Int64 := 4294967296
  let t := (now &&& ~~~0xFFFFFFFF) ||| timeU32.toUInt64.toInt64
  let ahead ← checkedSub t now
  if ahead > period / 2 then checkedSub t period
  else do
    let behind ← checkedSub now t
    if behind > period / 2 then checkedAdd t period
    else return t

theorem checkedSub_of_near {s t : Int64} (h : Near s t) :
    checkedSub s t = some (s - t) ∧ checkedSub t s = some (t - s) := by
  obtain ⟨hge,hlt⟩ := h
  exact ⟨if_pos ⟨by omega,by omega⟩,if_pos ⟨by omega,by omega⟩⟩

theorem reconstructTimeChecked_eq (u : UInt32) (now : Int64) (h0 : 0 ≤ now.toInt)
    (hmax : now.toInt < 2^62) : reconstructTimeChecked u now = some (reconstructTime u now) := by
  have hlow := lowHalf_toInt u now h0
  have hlt := u.toNat_lt
  simp only [reconstructTimeChecked,reconstructTime]
  generalize ((now &&& ~~~0xFFFFFFFF) ||| u.toUInt64.toInt64) = t at hlow
  have hperiod : Int64.toInt 4294967296 = 2^32 := rfl
  obtain ⟨hahead,hbehind⟩ := checkedSub_of_near (s := t) (t := now) ⟨by omega,by omega⟩
  have hdown : checkedSub t 4294967296 = some (t - 4294967296) :=
    (checkedSub_of_near ⟨by omega,by omega⟩).1
  have hup : checkedAdd t 4294967296 = some (t + 4294967296) := by
    refine if_pos ⟨?_,?_⟩
    · rw [hperiod]
      omega
    · rw [hperiod]
      omega
  simp only [hahead,hbehind,hdown,hup,Option.bind_eq_bind,Option.bind_some]
  split
  · rfl
  · split
    · rfl
    · rfl

/-! ## Start times -/

theorem reconstructTime_eq {u : UInt32} {now : Int64} {s : Int} (h0 : 0 ≤ now.toInt)
    (hmax : now.toInt < 2^62) (hlow : s % 2^32 = u.toNat) (hnear : |s - now.toInt| < 2^31) :
    (reconstructTime u now).toInt = s := by
  obtain ⟨hr,hge,hle⟩ := reconstructTime_spec u now h0 hmax
  obtain ⟨hgt,hlt⟩ := abs_lt.mp hnear
  omega

private theorem toNat_ofInt (s : Int) : ((UInt32.ofInt s).toNat : Int) = s % 2^32 := by
  rw [UInt32.ofInt,UInt32.toNat_ofNat']
  omega

/-! ## Verdicts -/

def TokenResult.verdict : TokenResult → TokenResult
  | .accepted secs _ => .accepted secs []
  | r => r

private theorem timeWindow_verdict (s now : Int64) (connId connId' : Nat) (label label' : Text) :
    (timeWindow s connId label now).val.verdict = (timeWindow s connId' label' now).val.verdict := by
  have hcheck : (windowCheck s connId now).val = (windowCheck s connId' now).val := by
    simp only [windowCheck,Logged.val_ite,Logged.val_bind,Logged.val_pure]
  simp only [timeWindow,Logged.val_bind,hcheck]
  cases (windowCheck s connId' now).val with
  | error rejected => rfl
  | ok early =>
    simp only [Logged.val_ite,Logged.val_bind,Logged.val_pure]
    split
    · rfl
    · rfl

private theorem validateV2_window {cr : Crypto} {keys : List SecretKey} {ip : IpAddr} {raw : Text}
    {s now : Int64} {k : SecretKey} (h0 : 0 ≤ now.toInt) (hmax : now.toInt < 2^62)
    (hnear : |s.toInt - now.toInt| < 2^31) (h : V2Token cr keys ip raw s.toInt k) (connId : Nat)
    (window : Int64) : (validateV2 cr raw keys connId (some ip) ⟨now,window⟩).val =
      (timeWindow s connId k.label window).val := by
  obtain ⟨bytes,hfields,hfirst,hip,hlow⟩ := h
  have hstart : reconstructTime (timeField bytes) now = s := by
    apply Int64.toInt_inj.mp
    exact reconstructTime_eq h0 hmax (by rw [hlow,timeField_toNat]) hnear
  rw [validateV2_val hfields]
  simp only [(find?_eq_some_iff_firstKey _ _ _).mpr hfirst,hip,if_true,hstart]

/-- The reconstructed time has the given low half, is at most half a period from the clock and is
computed without overflow. A start time less than half a period away is restored, and a v2 token
for it gets the verdict of a v1 token at the second reading of the clock. -/
theorem reconstructTime_inverts (now : Int64) (h0 : 0 ≤ now.toInt) (hmax : now.toInt < 2^62) :
    (∀ u : UInt32, (reconstructTime u now).toInt % 2^32 = u.toNat ∧
      |(reconstructTime u now).toInt - now.toInt| ≤ 2^31 ∧
      reconstructTimeChecked u now = some (reconstructTime u now)) ∧
    (∀ s : Int, |s - now.toInt| < 2^31 → (reconstructTime (UInt32.ofInt s) now).toInt = s) ∧
    ∀ (cr : Crypto) (keys : List SecretKey) (ip : IpAddr) (raw : Text) (s : Int64) (k : SecretKey),
      |s.toInt - now.toInt| < 2^31 → V2Token cr keys ip raw s.toInt k →
      ∀ (connId : Nat) (window : Int64),
        (validateV2 cr raw keys connId (some ip) ⟨now,window⟩).val =
          (timeWindow s connId k.label window).val ∧
        ∀ (keys' : List SecretKey) (raw' : Text) (k' : SecretKey) (connId' : Nat),
          FirstKey (V1Token cr raw' s) keys' k' →
          (validateV2 cr raw keys connId (some ip) ⟨now,window⟩).val.verdict =
            (validateV1 cr raw' keys' connId' (.constant window)).val.verdict := by
  refine ⟨?_,?_,?_⟩
  · intro u
    obtain ⟨hlow,hge,hle⟩ := reconstructTime_spec u now h0 hmax
    exact ⟨hlow,abs_le.mpr ⟨hge,hle⟩,reconstructTimeChecked_eq u now h0 hmax⟩
  · intro s hnear
    exact reconstructTime_eq h0 hmax (toNat_ofInt s).symm hnear
  · intro cr keys ip raw s k hnear htoken connId window
    have hwindow := validateV2_window h0 hmax hnear htoken connId window
    refine ⟨hwindow,?_⟩
    intro keys' raw' k' connId' hfirst
    rw [hwindow,validateV1_val hfirst]
    exact timeWindow_verdict s window connId connId' k.label k'.label

theorem reconstructTime_inverts_golden :
    (reconstructTime (UInt32.ofInt (-7)) 5).toInt = -7 ∧
      (reconstructTime (UInt32.ofInt 4294967300) 4294967290).toInt = 4294967300 ∧
      (validateV2 goldenCrypto "ZVPxAEzErM6+VBk3HmTzPw==" [goldenKey] 0 (some goldenIp)
          ⟨750000000,1700000091⟩).val.verdict =
        (validateV1 goldenCrypto goldenToken [goldenKey] 1 (.constant 1700000091)).val.verdict := by
  have hv2 : V2Token goldenCrypto [goldenKey] goldenIp "ZVPxAEzErM6+VBk3HmTzPw==" 1700000000 goldenKey := by
    refine ⟨[101,83,241,0,76,196,172,206,190,84,25,55,30,100,243,63],⟨by decide +kernel,rfl⟩,
      ⟨by decide +kernel,[],[],rfl,by simp⟩,by decide +kernel,by decide⟩
  have hv1 : V1Token goldenCrypto goldenToken 1700000000 goldenKey := by
    refine ⟨"8723358c-2037-4029-a70c-91e5d9d35cf3","1700000000",?_⟩
    exact ⟨by decide +kernel,by decide,by decide +kernel,by decide,by decide,by decide +kernel,
      by decide +kernel⟩
  refine ⟨?_,?_,?_⟩
  · exact (reconstructTime_inverts 5 (by decide) (by decide)).2.1 (-7) (by decide)
  · exact (reconstructTime_inverts 4294967290 (by decide) (by decide)).2.1 4294967300 (by decide)
  · have h := (reconstructTime_inverts 750000000 (by decide) (by decide)).2.2 goldenCrypto [goldenKey]
      goldenIp "ZVPxAEzErM6+VBk3HmTzPw==" 1700000000 goldenKey (by decide) hv2 0 1700000091
    exact h.2 [goldenKey] goldenToken goldenKey 1 ⟨hv1,[],[],rfl,by simp⟩

end Rmbtd
