import Rmbtd.Library.Decimal

/-!
# JSON text

JSON values and a reader for the standard grammar. A number is kept as its literal, and an object
keeps its members in order, also where a name occurs twice.
-/

namespace Rmbtd

/-- A JSON value; a number is kept as the text it is written as. -/
inductive Json
  | null
  | bool (b : Bool)
  | number (text : Text)
  | string (s : Text)
  | array (items : List Json)
  | object (members : List (Text × Json))

namespace JsonText

def isSpace (c : Char) : Bool := c == ' ' || c == '\t' || c == '\n' || c == '\r'

def skip (s : Text) : Text := s.dropWhile isSpace

/-! ## Strings -/

/-- A piece of a string: a character, or a UTF-16 code unit that was written as an escape. -/
inductive Part
  | char (c : Char)
  | unit (n : Nat)

private def hexDigit (c : Char) : Option Nat :=
  if c.isDigit then some (c.toNat - 48)
  else if 'a'.toNat ≤ c.toNat ∧ c.toNat ≤ 'f'.toNat then some (c.toNat - 87)
  else if 'A'.toNat ≤ c.toNat ∧ c.toNat ≤ 'F'.toNat then some (c.toNat - 55)
  else none

def codeUnit (a b c d : Char) : Option Nat := do
  return (← hexDigit a) * 4096 + (← hexDigit b) * 256 + (← hexDigit c) * 16 + (← hexDigit d)

def unescape : Char → Option Char
  | '"' => some '"'
  | '\\' => some '\\'
  | '/' => some '/'
  | 'b' => some (Char.ofNat 8)
  | 'f' => some (Char.ofNat 12)
  | 'n' => some '\n'
  | 'r' => some '\r'
  | 't' => some '\t'
  | _ => none

/-- Read a string up to its closing quote. -/
def readParts : Text → Option (List Part × Text)
  | [] => none
  | '"'::rest => some ([],rest)
  | '\\':: 'u'::a::b::c::d::rest =>
    match codeUnit a b c d with
    | some n => (readParts rest).map fun p => (.unit n::p.1,p.2)
    | none => none
  | '\\'::e::rest =>
    match unescape e with
    | some c => (readParts rest).map fun p => (.char c::p.1,p.2)
    | none => none
  | c::rest =>
    if c = '\\' ∨ c.toNat < 0x20 then none
    else (readParts rest).map fun p => (.char c::p.1,p.2)

def joinParts : List Part → Option Text
  | [] => some []
  | .char c::ps => (joinParts ps).map (c :: ·)
  | .unit n::.unit m::ps =>
    if n < 0xD800 ∨ 0xDFFF < n then (joinParts (.unit m::ps)).map (Char.ofNat n :: ·)
    else if n < 0xDC00 ∧ 0xDC00 ≤ m ∧ m ≤ 0xDFFF then
      (joinParts ps).map (Char.ofNat (0x10000 + (n - 0xD800) * 0x400 + (m - 0xDC00)) :: ·)
    else none
  | .unit n::ps =>
    if n < 0xD800 ∨ 0xDFFF < n then (joinParts ps).map (Char.ofNat n :: ·) else none

/-- Read a string whose opening quote has been read. -/
def readString (s : Text) : Option (Text × Text) :=
  (readParts s).bind fun p => (joinParts p.1).map fun t => (t,p.2)

/-! ## Numbers -/

def readFraction : Text → Option (Text × Text)
  | '.'::s =>
    let ds := s.takeWhile Char.isDigit
    if ds = [] then none else some ('.'::ds,s.drop ds.length)
  | s => some ([],s)

private def readExponentDigits (before s : Text) : Option (Text × Text) :=
  let ds := s.takeWhile Char.isDigit
  if ds = [] then none else some (before ++ ds,s.drop ds.length)

def readExponent : Text → Option (Text × Text)
  | e::s =>
    if e = 'e' ∨ e = 'E' then
      match s with
      | '+'::s => readExponentDigits [e,'+'] s
      | '-'::s => readExponentDigits [e,'-'] s
      | s => readExponentDigits [e] s
    else some ([],e::s)
  | [] => some ([],[])

def readInteger (s : Text) : Option (Text × Text) :=
  let ds := s.takeWhile Char.isDigit
  if ds = [] ∨ (ds.head? = some '0' ∧ 1 < ds.length) then none
  else some (ds,s.drop ds.length)

def readUnsignedNumber (s : Text) : Option (Text × Text) := do
  let (int,s) ← readInteger s
  let (frac,s) ← readFraction s
  let (exp,s) ← readExponent s
  return (int ++ frac ++ exp,s)

def readNumber : Text → Option (Text × Text)
  | '-'::s => (readUnsignedNumber s).map fun p => ('-'::p.1,p.2)
  | s => readUnsignedNumber s

/-! ## Values -/

mutual

/-- Read a value. The fuel bounds the nesting and the length of arrays and objects. -/
def readValue : Nat → Text → Option (Json × Text)
  | 0, _ => none
  | fuel+1, s =>
    match skip s with
    | '\x7b'::s =>
      match skip s with
      | '\x7d'::s => some (.object [],s)
      | s => (readMembers fuel s).map fun p => (.object p.1,p.2)
    | '['::s =>
      match skip s with
      | ']'::s => some (.array [],s)
      | s => (readItems fuel s).map fun p => (.array p.1,p.2)
    | '"'::s => (readString s).map fun p => (.string p.1,p.2)
    | 't':: 'r':: 'u':: 'e'::s => some (.bool true,s)
    | 'f':: 'a':: 'l':: 's':: 'e'::s => some (.bool false,s)
    | 'n':: 'u':: 'l':: 'l'::s => some (.null,s)
    | s => (readNumber s).map fun p => (.number p.1,p.2)

/-- Read the members of an object up to its closing brace. -/
def readMembers : Nat → Text → Option (List (Text × Json) × Text)
  | 0, _ => none
  | fuel+1, s =>
    match skip s with
    | '"'::s => do
      let (name,s) ← readString s
      match skip s with
      | ':'::s => do
        let (value,s) ← readValue fuel s
        match skip s with
        | ','::s => (readMembers fuel s).map fun p => ((name,value)::p.1,p.2)
        | '\x7d'::s => some ([(name,value)],s)
        | _ => none
      | _ => none
    | _ => none

def readItems : Nat → Text → Option (List Json × Text)
  | 0, _ => none
  | fuel+1, s => do
    let (value,s) ← readValue fuel s
    match skip s with
    | ','::s => (readItems fuel s).map fun p => (value::p.1,p.2)
    | ']'::s => some ([value],s)
    | _ => none

end

def parseJson (s : Text) : Option Json :=
  match readValue (s.length + 1) s with
  | some (value,rest) => if skip rest = [] then some value else none
  | none => none

/-! ## Reading what a writer wrote -/

theorem readString_quote (rest : Text) : readString ('"'::rest) = some ([],rest) := rfl

private theorem readString_of_part {s rest : Text} {p : Part} {c : Char}
    (hs : readParts s = (readParts rest).map fun q => (p::q.1,q.2))
    (hc : ∀ ps, joinParts (p::ps) = (joinParts ps).map (c :: ·)) :
    readString s = (readString rest).map fun p => (c::p.1,p.2) := by
  simp only [readString,hs]
  cases readParts rest with
  | none => rfl
  | some p =>
    simp only [Option.map_some,Option.bind_some,hc]
    cases joinParts p.1 with
    | none => rfl
    | some t => rfl

theorem readString_char {c : Char} (hquote : c ≠ '"') (hslash : c ≠ '\\') (hc : 0x20 ≤ c.toNat)
    (rest : Text) : readString (c::rest) = (readString rest).map fun p => (c::p.1,p.2) := by
  apply readString_of_part (p := .char c)
  · rw [readParts.eq_5 _ _ hquote (by intro _ _ _ _ _ h; exact absurd h hslash)
      (by intro _ _ h; exact absurd h hslash),if_neg (by simp only [hslash,false_or]; omega)]
  · exact fun ps => rfl

theorem readString_escape {e c : Char} (h : unescape e = some c) (rest : Text) :
    readString ('\\'::e::rest) = (readString rest).map fun p => (c::p.1,p.2) := by
  have hu : e ≠ 'u' := by
    rintro rfl
    cases h
  apply readString_of_part (p := .char c)
  · rw [readParts.eq_4 _ _ (by intro a b c d r he; exact absurd he hu)]
    rw [h]
  · exact fun ps => rfl

theorem readString_unicode {a b c d : Char} {n : Nat} (h : codeUnit a b c d = some n)
    (hn : n < 0xD800) (rest : Text) : readString ('\\':: 'u'::a::b::c::d::rest) =
      (readString rest).map fun p => (Char.ofNat n::p.1,p.2) := by
  apply readString_of_part (p := .unit n)
  · simp only [readParts,h]
  · intro ps
    cases ps with
    | nil => exact if_pos (Or.inl hn)
    | cons p ps =>
      cases p with
      | char c' => exact if_pos (Or.inl hn)
      | unit m => exact if_pos (Or.inl hn)

/-- The text does not go on with a number. -/
def EndsNumber (rest : Text) : Prop :=
  ∀ c r, rest = c::r → ¬c.isDigit ∧ c ≠ '.' ∧ c ≠ 'e' ∧ c ≠ 'E'

private theorem takeWhile_digits {ds rest : Text} (hd : ∀ c ∈ ds, c.isDigit)
    (hr : ∀ c r, rest = c::r → ¬c.isDigit) : (ds ++ rest).takeWhile Char.isDigit = ds := by
  rw [List.takeWhile_append_of_pos hd]
  cases rest with
  | nil => simp
  | cons c r => simp [hr c r rfl]

private theorem readFraction_end {rest : Text} (h : EndsNumber rest) :
    readFraction rest = some ([],rest) := by
  cases rest with
  | nil => rfl
  | cons c r =>
    have hdot := (h c r rfl).2.1
    exact readFraction.eq_2 _ (by intro s hs; exact hdot (List.cons.inj hs).1)

private theorem readFraction_digits {ds rest : Text} (hd : ∀ c ∈ ds, c.isDigit) (hne : ds ≠ [])
    (h : EndsNumber rest) : readFraction ('.'::(ds ++ rest)) = some ('.'::ds,rest) := by
  simp only [readFraction,takeWhile_digits hd fun c r hr => (h c r hr).1,if_neg hne,
    List.drop_left]

private theorem readExponent_end {rest : Text} (h : EndsNumber rest) :
    readExponent rest = some ([],rest) := by
  cases rest with
  | nil => rfl
  | cons c r =>
    have hc := (h c r rfl).2.2
    simp only [readExponent]
    rw [if_neg (by tauto)]

theorem natText_head {n : Nat} (h : 0 < n) : (natText n).head? ≠ some '0' := by
  induction n using Nat.strongRecOn with
  | ind n ih =>
    rw [natText,Nat.toDigits_eq_if (by decide)]
    split
    · next hlt =>
      have hall : ∀ d < 10, 0 < d → Nat.digitChar d ≠ '0' := by decide
      simp [hall n hlt h]
    · next hge =>
      have ih := ih (n / 10) (by omega) (by omega)
      have hne := natText_ne_nil (n / 10)
      rw [natText] at ih hne
      rwa [List.head?_append_of_ne_nil _ hne]

private theorem readInteger_natText (n : Nat) {rest : Text}
    (hr : ∀ c r, rest = c::r → ¬c.isDigit) :
    readInteger (natText n ++ rest) = some (natText n,rest) := by
  have hzero : ¬(natText n = [] ∨ (natText n).head? = some '0' ∧ 1 < (natText n).length) := by
    rintro (h | ⟨h,hlen⟩)
    · exact natText_ne_nil n h
    · rcases Nat.eq_zero_or_pos n with rfl | hn
      · exact absurd hlen (by decide)
      · exact natText_head hn h
  simp only [readInteger,takeWhile_digits (fun c hc => natText_isDigit hc) hr,if_neg hzero,
    List.drop_left]

theorem readUnsignedNumber_natText (n : Nat) {rest : Text} (h : EndsNumber rest) :
    readUnsignedNumber (natText n ++ rest) = some (natText n,rest) := by
  simp [readUnsignedNumber,readInteger_natText n fun c r hr => (h c r hr).1,readFraction_end h,
    readExponent_end h]

theorem readUnsignedNumber_fixed (n : Nat) {ds rest : Text} (hd : ∀ c ∈ ds, c.isDigit)
    (hne : ds ≠ []) (h : EndsNumber rest) :
    readUnsignedNumber (natText n ++ '.'::(ds ++ rest)) = some (natText n ++ '.'::ds,rest) := by
  have hdot : ∀ c r, '.'::(ds ++ rest) = c::r → ¬c.isDigit := by
    intro c r hr
    cases hr
    decide
  simp [readUnsignedNumber,readInteger_natText n hdot,readFraction_digits hd hne h,
    readExponent_end h]

theorem readNumber_signed (negative : Bool) {n : Nat} {t rest r : Text}
    (h : readUnsignedNumber (natText n ++ t) = some (r,rest)) :
    readNumber ((if negative then ['-'] else []) ++ (natText n ++ t)) =
      some ((if negative then ['-'] else []) ++ r,rest) := by
  cases negative with
  | true => simp [readNumber,h]
  | false =>
    have hminus : ∀ s, natText n ++ t ≠ '-'::s := by
      intro s hs
      cases hn : natText n with
      | nil => exact natText_ne_nil n hn
      | cons c ds =>
        have hc := natText_isDigit (n := n) (c := c) (by simp [hn])
        rw [hn] at hs
        cases hs
        exact absurd hc (by decide)
    simp only [Bool.false_eq_true,if_false,List.nil_append]
    rw [readNumber.eq_2 _ hminus]
    exact h

theorem readNumber_intText (i : Int) {rest : Text} (h : EndsNumber rest) :
    readNumber (intText i ++ rest) = some (intText i,rest) := by
  cases i with
  | ofNat n => exact readNumber_signed false (readUnsignedNumber_natText n h)
  | negSucc n => exact readNumber_signed true (readUnsignedNumber_natText (n+1) h)

theorem skip_cons {c : Char} (h : isSpace c = false) (s : Text) : skip (c::s) = c::s := by
  simp [skip,h]

theorem readValue_string (fuel : Nat) (s : Text) :
    readValue (fuel+1) ('"'::s) = (readString s).map fun p => (.string p.1,p.2) := by
  simp only [readValue,skip_cons (show isSpace '"' = false from rfl)]

theorem readValue_bool (fuel : Nat) (b : Bool) (rest : Text) :
    readValue (fuel+1) (boolText b ++ rest) = some (.bool b,rest) := by
  cases b with
  | true => rfl
  | false => rfl

theorem readValue_number (fuel : Nat) {c : Char} {s : Text} (hc : c = '-' ∨ c.isDigit) :
    readValue (fuel+1) (c::s) = (readNumber (c::s)).map fun p => (.number p.1,p.2) := by
  have hne : c ≠ '\x7b' ∧ c ≠ '[' ∧ c ≠ '"' ∧ c ≠ 't' ∧ c ≠ 'f' ∧ c ≠ 'n' ∧ isSpace c = false := by
    have hd {d : Char} (hd : d ≠ '-' ∧ d.isDigit = false) : c ≠ d := by
      rintro rfl
      rcases hc with hc | hc
      · exact hd.1 hc
      · rw [hd.2] at hc; cases hc
    refine ⟨hd (by decide),hd (by decide),hd (by decide),hd (by decide),hd (by decide),
      hd (by decide),?_⟩
    have h1 : c ≠ ' ' := hd (by decide)
    have h2 : c ≠ '\t' := hd (by decide)
    have h3 : c ≠ '\n' := hd (by decide)
    have h4 : c ≠ '\r' := hd (by decide)
    simp [isSpace,h1,h2,h3,h4]
  obtain ⟨h1,h2,h3,h4,h5,h6,hspace⟩ := hne
  simp only [readValue,skip_cons hspace]
  split
  · next heq => exact absurd (List.cons.inj heq).1 h1
  · next heq => exact absurd (List.cons.inj heq).1 h2
  · next heq => exact absurd (List.cons.inj heq).1 h3
  · next heq => exact absurd (List.cons.inj heq).1 h4
  · next heq => exact absurd (List.cons.inj heq).1 h5
  · next heq => exact absurd (List.cons.inj heq).1 h6
  · rfl

/-- A member of an object as a writer wrote it, with what a reader makes of it. -/
structure WrittenMember where
  nameText : Text
  valueText : Text
  name : Text
  value : Json
  reads_name : ∀ rest, readString (nameText ++ '"'::rest) = some (name,rest)
  reads_value : ∀ fuel rest, EndsNumber rest →
    readValue (fuel+1) (valueText ++ rest) = some (value,rest)

def WrittenMember.text (m : WrittenMember) : Text := '"'::(m.nameText ++ '"':: ':'::m.valueText)

/-! ## Text without escapes -/

/-- The character stands for itself in a string. -/
def isVerbatim (c : Char) : Bool := c != '"' && c != '\\' && decide (0x20 ≤ c.toNat)

/-- A string that is written without escapes. -/
def Verbatim (s : Text) : Prop := ∀ c ∈ s, isVerbatim c

instance (s : Text) : Decidable (Verbatim s) := List.decidableBAll (isVerbatim ·) s

theorem readString_verbatim {s : Text} (hs : Verbatim s) (rest : Text) :
    readString (s ++ '"'::rest) = some (s,rest) := by
  induction s with
  | nil => exact readString_quote rest
  | cons c s ih =>
    have hc := hs c List.mem_cons_self
    simp only [isVerbatim,Bool.and_eq_true,bne_iff_ne,decide_eq_true_eq] at hc
    rw [List.cons_append,readString_char hc.1.1 hc.1.2 hc.2,
      ih fun d hd => hs d (List.mem_cons_of_mem c hd)]
    rfl

def WrittenMember.string {name s : Text} (hname : Verbatim name) (hs : Verbatim s) : WrittenMember where
  nameText := name
  valueText := '"'::(s ++ ['"'])
  name := name
  value := .string s
  reads_name := readString_verbatim hname
  reads_value := by
    intro fuel rest _
    rw [List.cons_append,List.append_assoc,readValue_string,List.singleton_append,
      readString_verbatim hs]
    rfl

def WrittenMember.bool {name : Text} (hname : Verbatim name) (b : Bool) : WrittenMember where
  nameText := name
  valueText := boolText b
  name := name
  value := .bool b
  reads_name := readString_verbatim hname
  reads_value fuel rest _ := readValue_bool fuel b rest

private theorem endsNumber_cons {c : Char} (h : ¬c.isDigit ∧ c ≠ '.' ∧ c ≠ 'e' ∧ c ≠ 'E')
    (r : Text) : EndsNumber (c::r) := by
  intro c' r' heq
  cases heq
  exact h

private theorem readMembers_step (m : WrittenMember) (fuel : Nat) {t : Text} (h : EndsNumber t) :
    readMembers (fuel+2) (m.text ++ t) =
      match skip t with
      | ','::s => (readMembers (fuel+1) s).map fun p => ((m.name,m.value)::p.1,p.2)
      | '\x7d'::s => some ([(m.name,m.value)],s)
      | _ => none := by
  rw [readMembers]
  simp only [WrittenMember.text,List.cons_append,List.append_assoc,
    skip_cons (show isSpace '"' = false from rfl),m.reads_name,Option.bind_eq_bind,
    Option.bind_some,skip_cons (show isSpace ':' = false from rfl),m.reads_value fuel t h]

private theorem readMembers_written (m : WrittenMember) (ms : List WrittenMember) (fuel : Nat)
    (hfuel : ms.length ≤ fuel) (rest : Text) :
    readMembers (fuel+2) (m.text ++ ((ms.flatMap fun m => ','::m.text) ++ '\x7d'::rest)) =
      some ((m::ms).map fun m => (m.name,m.value),rest) := by
  induction ms generalizing m fuel with
  | nil =>
    rw [List.flatMap_nil,List.nil_append,readMembers_step m fuel (endsNumber_cons (by decide) rest),
      skip_cons (by decide)]
    rfl
  | cons m' ms ih =>
    obtain ⟨fuel,rfl⟩ : ∃ n, fuel = n + 1 := ⟨fuel - 1,by simp at hfuel; omega⟩
    rw [List.flatMap_cons,List.cons_append,List.cons_append,
      readMembers_step m (fuel+1) (endsNumber_cons (by decide) _),skip_cons (by decide),
      List.append_assoc]
    simp only
    rw [ih m' fuel (by simpa using hfuel)]
    rfl

theorem parseJson_empty : parseJson "\x7b\x7d" = some (.object []) := rfl

/-- A text of members between braces, separated by commas, is one object with these members. -/
theorem parseJson_object (m : WrittenMember) (ms : List WrittenMember) :
    parseJson ('\x7b'::(m.text ++ ((ms.flatMap fun m => ','::m.text) ++ ['\x7d']))) =
      some (.object ((m::ms).map fun m => (m.name,m.value))) := by
  have hlength : ms.length ≤ (ms.flatMap fun m => ','::m.text).length := by
    induction ms with
    | nil => simp
    | cons m ms ih =>
      simp only [List.flatMap_cons,List.length_append,List.length_cons]
      omega
  have hread (fuel : Nat) (h : ms.length ≤ fuel) := readMembers_written m ms fuel h []
  generalize hs : m.text ++ ((ms.flatMap fun m => ','::m.text) ++ ['\x7d']) = s at hread
  have hskip : skip s = s := by
    rw [← hs,WrittenMember.text,List.cons_append,skip_cons (by decide)]
  have hbrace : ∀ r, s ≠ '\x7d'::r := by
    intro r hr
    rw [hr,WrittenMember.text] at hs
    cases hs
  obtain ⟨fuel,hlen,hfuel⟩ : ∃ fuel, s.length = fuel + 1 ∧ ms.length ≤ fuel := by
    refine ⟨s.length - 1,?_,?_⟩
    all_goals
      rw [← hs]
      simp only [WrittenMember.text,List.length_append,List.length_cons,List.length_nil] at hlength ⊢
      omega
  have hvalue : readValue (s.length + 2) ('\x7b'::s) =
      some (.object ((m::ms).map fun m => (m.name,m.value)),[]) := by
    rw [hlen]
    simp only [readValue,skip_cons (show isSpace '\x7b' = false from rfl),hskip]
    rw [hread fuel hfuel]
    rfl
  simp only [parseJson,List.length_cons,hvalue]
  rfl

end JsonText

end Rmbtd
