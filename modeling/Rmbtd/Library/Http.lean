import Rmbtd.Library.Decimal
import Rmbtd.Library.Utf8
import Mathlib.Data.List.Forall2

/-!
# Reading HTTP responses

A reader of HTTP/1.1 messages that also takes a line feed alone as the end of a line, and that
joins a folded line to the field before it. A body has the length its field gives.
-/

namespace Rmbtd.Http

structure Response where
  startLine : Bytes
  fields : List (Bytes × Bytes)
  body : Bytes
deriving DecidableEq

def dropCr (line : Bytes) : Bytes := if line.getLast? = some 13 then line.dropLast else line

/-- The lines up to an empty one, and what follows it. The beginning of the current line is given. -/
def readHead (line : Bytes) : Bytes → Option (List Bytes × Bytes)
  | [] => none
  | b::bs =>
    if b = 10 then
      if dropCr line = [] then some ([],bs)
      else (readHead [] bs).map fun p => (dropCr line::p.1,p.2)
    else readHead (line ++ [b]) bs

def isOws (b : UInt8) : Bool := b == 32 || b == 9

def isFold (line : Bytes) : Bool := line.head?.any isOws

/-- Folded lines joined to the line before them, and those without such a line. -/
def unfoldLines : List Bytes → Bytes × List Bytes
  | [] => ([],[])
  | line::lines =>
    let (fold,rest) := unfoldLines lines
    if isFold line then (32::(line ++ fold),rest) else ([],(line ++ fold)::rest)

def isTchar (b : UInt8) : Bool :=
  let c := Char.ofNat b.toNat
  c.isAlphanum || "!#$%&'*+-.^_`|~".toList.contains c

def trimOws (value : Bytes) : Bytes := (value.dropWhile isOws).rdropWhile isOws

def parseField (line : Bytes) : Option (Bytes × Bytes) :=
  let name := line.takeWhile fun b => b != 58
  if name.length < line.length ∧ name ≠ [] ∧ name.all isTchar then
    some (name,trimOws (line.drop (name.length + 1)))
  else none

def lower (name : Bytes) : Bytes := name.map fun b => if 65 ≤ b ∧ b ≤ 90 then b + 32 else b

def valuesOf (name : Text) (fields : List (Bytes × Bytes)) : List Bytes :=
  (fields.filter fun f => lower f.1 = utf8 name).map Prod.snd

/-- The body and what follows it. Without a length it extends to the end of the connection. -/
def splitBody (fields : List (Bytes × Bytes)) (rest : Bytes) : Option (Bytes × Bytes) :=
  match valuesOf "content-length" fields with
  | [] => some (rest,[])
  | [value] => do
    let n ← parseDigits (value.map fun b => Char.ofNat b.toNat)
    if n ≤ rest.length then some (rest.take n,rest.drop n) else none
  | _ => none

def parseFields (lines : List Bytes) : Option (List (Bytes × Bytes)) :=
  let (orphan,lines) := unfoldLines lines
  if orphan = [] then lines.mapM parseField else none

def readResponse (bs : Bytes) : Option (Response × Bytes) := do
  let (lines,rest) ← readHead [] bs
  match lines with
  | [] => none
  | startLine::lines => do
    let fields ← parseFields lines
    let (body,rest) ← splitBody fields rest
    return (⟨startLine,fields,body⟩,rest)

/-! ## Lines -/

theorem readHead_append {line l : Bytes} (h : (10 : UInt8) ∉ l) (rest : Bytes) :
    readHead line (l ++ rest) = readHead (line ++ l) rest := by
  induction l generalizing line with
  | nil => simp
  | cons b l ih =>
    simp only [List.mem_cons,not_or] at h
    rw [List.cons_append,readHead,if_neg (Ne.symm h.1),ih h.2]
    simp

theorem dropCr_append_cr (l : Bytes) : dropCr (l ++ [13]) = l := by
  simp [dropCr]

theorem readHead_lines {lines : List Bytes} (h : ∀ l ∈ lines, l ≠ [] ∧ (10 : UInt8) ∉ l) (rest : Bytes) :
    readHead [] (lines.flatMap (fun l => l ++ [13,10]) ++ rest) =
      (readHead [] rest).map fun p => (lines ++ p.1,p.2) := by
  induction lines with
  | nil => simp
  | cons l lines ih =>
    obtain ⟨hne,hlf⟩ := h l List.mem_cons_self
    have hcr : (10 : UInt8) ∉ l ++ [13] := by simpa using hlf
    have hsplit : (l::lines).flatMap (fun l => l ++ [13,10]) ++ rest =
        (l ++ [13]) ++ 10::(lines.flatMap (fun l => l ++ [13,10]) ++ rest) := by simp
    rw [hsplit,readHead_append hcr,List.nil_append,readHead,if_pos rfl,dropCr_append_cr,if_neg hne,
      ih fun l hl => h l (List.mem_cons_of_mem _ hl),Option.map_map]
    rfl

theorem readHead_end (rest : Bytes) : readHead [] (13::10::rest) = some ([],rest) := by
  simp [readHead,dropCr]

/-! ## Line feeds inside a line -/

/-- The line feeds that begin a new line and not a folded one. -/
def newLines : Bytes → Nat
  | [] => 0
  | b::bs => (if b = 10 ∧ isFold bs = false then 1 else 0) + newLines bs

theorem dropCr_eq_nil {l : Bytes} (h : dropCr l = []) (hcr : l.head? ≠ some 13) : l = [] := by
  unfold dropCr at h
  split at h
  · next hlast =>
    cases l with
    | nil => rfl
    | cons b l =>
      cases l with
      | nil => exact absurd hlast hcr
      | cons c l => simp at h
  · exact h

theorem head?_dropCr {l : Bytes} (h : dropCr l ≠ []) : (dropCr l).head? = l.head? := by
  unfold dropCr at h ⊢
  split
  · next hlast =>
    rw [if_pos hlast] at h
    cases l with
    | nil => rfl
    | cons b l =>
      cases l with
      | nil => exact absurd rfl h
      | cons c l => rfl
  · rfl

private theorem isFold_dropCr {l : Bytes} (h : dropCr l ≠ []) : isFold (dropCr l) = isFold l := by
  rw [isFold,head?_dropCr h,isFold]

private theorem isFold_append {l : Bytes} (h : l ≠ []) (r : Bytes) : isFold (l ++ r) = isFold l := by
  cases l with
  | nil => exact absurd rfl h
  | cons b l => rfl

theorem readHead_newLines (line z rest : Bytes) :
    (∃ lines tail, readHead line (z ++ 10::rest) = some (lines,tail) ∧ rest <:+ tail) ∨
    ∃ lines, readHead line (z ++ 10::rest) = (readHead [] rest).map (fun p => (lines ++ p.1,p.2)) ∧
      lines.countP (fun l => !isFold l) = (if isFold (line ++ z) then 0 else 1) + newLines z := by
  induction z generalizing line with
  | nil =>
    rw [List.nil_append,readHead,if_pos rfl]
    by_cases hempty : dropCr line = []
    · rw [if_pos hempty]
      exact Or.inl ⟨_,_,rfl,List.suffix_refl rest⟩
    · rw [if_neg hempty]
      refine Or.inr ⟨[dropCr line],rfl,?_⟩
      rw [List.countP_singleton,isFold_dropCr hempty,List.append_nil,newLines]
      cases isFold line <;> rfl
  | cons b z ih =>
    rw [List.cons_append,readHead]
    by_cases hb : b = 10
    · subst hb
      rw [if_pos rfl]
      by_cases hempty : dropCr line = []
      · rw [if_pos hempty]
        exact Or.inl ⟨_,_,rfl,(List.suffix_cons 10 rest).trans (List.suffix_append z _)⟩
      · rw [if_neg hempty]
        have hne : line ≠ [] := by
          rintro rfl
          exact hempty rfl
        rcases ih [] with ⟨lines,tail,heq,hsuffix⟩ | ⟨lines,heq,hcount⟩
        · rw [heq]
          exact Or.inl ⟨_,_,rfl,hsuffix⟩
        · rw [heq,Option.map_map]
          refine Or.inr ⟨dropCr line::lines,rfl,?_⟩
          rw [List.countP_cons,hcount,isFold_dropCr hempty,isFold_append hne,newLines,List.nil_append]
          cases isFold line <;> cases isFold z <;> simp <;> omega
    · rw [if_neg hb]
      have hnew : newLines (b::z) = newLines z := by
        rw [newLines,if_neg fun h => hb h.1,Nat.zero_add]
      rw [hnew]
      have hline : line ++ b::z = line ++ [b] ++ z := by simp
      rw [hline]
      exact ih (line ++ [b])

theorem readHead_folds {line z : Bytes} (rest : Bytes) (hz : newLines z = 0) {b : UInt8}
    (hhead : (line ++ z).head? = some b) (hcr : b ≠ 13) (hlf : b ≠ 10) :
    ∃ x folds, readHead line (z ++ 13::10::rest) =
        (readHead [] rest).map (fun p => (dropCr (line ++ x)::(folds ++ p.1),p.2)) ∧
      (∀ l ∈ folds, isFold l) ∧ (dropCr (line ++ x)).head? = some b := by
  induction z generalizing line b with
  | nil =>
    rw [List.append_nil] at hhead
    have hne : line ≠ [] := by
      rintro rfl
      cases hhead
    refine ⟨[13],[],?_,List.forall_mem_nil _,?_⟩
    · rw [List.nil_append,readHead,if_neg (by decide),readHead,if_pos rfl,dropCr_append_cr,if_neg hne]
      rfl
    · rw [dropCr_append_cr,hhead]
  | cons c z ih =>
    rw [List.cons_append,readHead]
    by_cases hc : c = 10
    · subst hc
      have hne : line ≠ [] := by
        rintro rfl
        exact hlf (Option.some.inj hhead).symm
      have hhead' : line.head? = some b := by rwa [List.head?_append_of_ne_nil _ hne] at hhead
      have hdrop : dropCr line ≠ [] := by
        intro h
        apply hne
        apply dropCr_eq_nil h
        rw [hhead']
        exact fun h => hcr (Option.some.inj h)
      have hfold : isFold z = true := by
        by_contra hnot
        rw [newLines,if_pos ⟨rfl,by simpa using hnot⟩] at hz
        omega
      obtain ⟨d,hd,hows⟩ : ∃ d, z.head? = some d ∧ isOws d := by
        unfold isFold at hfold
        cases hz : z.head? with
        | none => rw [hz] at hfold; cases hfold
        | some d => rw [hz] at hfold; exact ⟨d,rfl,hfold⟩
      have hz' : newLines z = 0 := by
        rw [newLines] at hz
        omega
      have hd13 : d ≠ 13 := by
        rintro rfl
        exact absurd hows (by decide)
      have hd10 : d ≠ 10 := by
        rintro rfl
        exact absurd hows (by decide)
      have hstart : (([] : Bytes) ++ z).head? = some d := hd
      obtain ⟨x,folds,heq,hfolds,hx⟩ := ih hz' hstart hd13 hd10
      refine ⟨[],dropCr ([] ++ x)::folds,?_,?_,?_⟩
      · rw [if_pos rfl,if_neg hdrop,heq,Option.map_map,List.append_nil]
        rfl
      · intro l hl
        rcases List.mem_cons.mp hl with rfl | hl
        · rw [isFold,hx]
          exact hows
        · exact hfolds l hl
      · rw [List.append_nil,head?_dropCr hdrop,hhead']
    · have hline : line ++ c::z = line ++ [c] ++ z := by simp
      have hz' : newLines z = 0 := by
        rw [newLines] at hz
        omega
      rw [hline] at hhead
      obtain ⟨x,folds,heq,hfolds,hx⟩ := ih hz' hhead hcr hlf
      rw [if_neg hc]
      refine ⟨c::x,folds,?_,hfolds,?_⟩
      · rw [heq]
        simp
      · simpa using hx

/-! ## Fields -/

theorem unfoldLines_length (lines : List Bytes) :
    (unfoldLines lines).2.length = lines.countP fun l => !isFold l := by
  induction lines with
  | nil => rfl
  | cons l lines ih =>
    rw [unfoldLines,List.countP_cons,← ih]
    cases isFold l <;> rfl

theorem unfoldLines_of_not_fold {lines : List Bytes} (h : ∀ l ∈ lines, isFold l = false) :
    unfoldLines lines = ([],lines) := by
  induction lines with
  | nil => rfl
  | cons l lines ih =>
    rw [unfoldLines,ih fun l hl => h l (List.mem_cons_of_mem _ hl)]
    simp [h l List.mem_cons_self]

theorem unfoldLines_folds {before after folds : List Bytes} {l : Bytes}
    (hbefore : ∀ l ∈ before, isFold l = false) (hl : isFold l = false)
    (hfolds : ∀ l ∈ folds, isFold l = true) (hafter : ∀ l ∈ after, isFold l = false) :
    ∃ x, unfoldLines (before ++ l::(folds ++ after)) = ([],before ++ (l ++ x)::after) := by
  have hjoined : ∃ x, unfoldLines (folds ++ after) = (x,after) := by
    induction folds with
    | nil => exact ⟨[],unfoldLines_of_not_fold hafter⟩
    | cons f folds ih =>
      obtain ⟨x,hx⟩ := ih fun l hl => hfolds l (List.mem_cons_of_mem _ hl)
      refine ⟨32::(f ++ x),?_⟩
      rw [List.cons_append,unfoldLines,hx]
      simp [hfolds f List.mem_cons_self]
  obtain ⟨x,hx⟩ := hjoined
  refine ⟨x,?_⟩
  induction before with
  | nil =>
    rw [List.nil_append,unfoldLines,hx]
    simp [hl]
  | cons b before ih =>
    rw [List.cons_append,unfoldLines,ih fun l hl => hbefore l (List.mem_cons_of_mem _ hl)]
    simp [hbefore b List.mem_cons_self]

/-- A field name: not empty and of token characters. -/
def IsToken (name : Bytes) : Prop := name ≠ [] ∧ ∀ b ∈ name, isTchar b

theorem parseField_eq {name : Bytes} (h : IsToken name) (value : Bytes) :
    parseField (name ++ 58::value) = some (name,trimOws value) := by
  have hcolon : ∀ b ∈ name, (b != 58) = true := by
    intro b hb
    have htchar := h.2 b hb
    by_contra hnot
    have h58 : b = 58 := by simpa using hnot
    subst h58
    exact absurd htchar (by decide)
  have hname : (name ++ 58::value).takeWhile (fun b => b != 58) = name := by
    rw [List.takeWhile_append_of_pos hcolon]
    simp
  rw [parseField]
  simp only [hname]
  rw [if_pos ⟨by simp,h.1,List.all_eq_true.mpr h.2⟩]
  congr 2
  simp

theorem trimOws_of_not_ows {value : Bytes} (h : ∀ b ∈ value, isOws b = false) :
    trimOws value = value := by
  have hdrop : value.dropWhile isOws = value := by
    rw [List.dropWhile_eq_self_iff]
    intro hlen hows
    rw [h _ (List.getElem_mem hlen)] at hows
    cases hows
  rw [trimOws,hdrop,List.rdropWhile_eq_self_iff]
  intro hne hows
  rw [h _ (List.getLast_mem hne)] at hows
  cases hows

/-- A field as a server writes it: a name of token characters and a value without line feeds that
neither begins nor ends with a blank. -/
structure Field where
  name : Text
  value : Text
  isToken : IsToken (utf8 name)
  isLine : (10 : UInt8) ∉ utf8 value
  isTrimmed : trimOws (utf8 value) = utf8 value

namespace Field

def line (f : Field) : Bytes := utf8 f.name ++ 58::32::utf8 f.value

def parsed (f : Field) : Bytes × Bytes := (utf8 f.name,utf8 f.value)

theorem parseField_line (f : Field) : parseField f.line = some f.parsed := by
  have htrim : trimOws (32::utf8 f.value) = trimOws (utf8 f.value) := rfl
  rw [line,parseField_eq f.isToken,htrim,f.isTrimmed]
  rfl

theorem mapM_line (fields : List Field) : (fields.map line).mapM parseField = some (fields.map parsed) := by
  induction fields with
  | nil => rfl
  | cons f fields ih =>
    rw [List.map_cons,List.mapM_cons,parseField_line,ih]
    rfl

end Field

private theorem token_head {name : Bytes} (h : IsToken name) (rest : Bytes) :
    isFold (name ++ rest) = false ∧ name ++ rest ≠ [] := by
  obtain ⟨b,bs,rfl⟩ := List.exists_cons_of_ne_nil h.1
  refine ⟨?_,List.cons_ne_nil _ _⟩
  have htchar := h.2 b List.mem_cons_self
  by_contra hfold
  have hows : isOws b = true := by simpa [isFold] using hfold
  simp only [isOws,Bool.or_eq_true,beq_iff_eq] at hows
  rcases hows with rfl | rfl <;> exact absurd htchar (by decide)

private theorem token_not_mem {name : Bytes} (h : IsToken name) {b : UInt8} (hb : isTchar b = false) :
    b ∉ name := by
  intro hmem
  rw [h.2 b hmem] at hb
  cases hb

private theorem Field.isFold_line (f : Field) : isFold f.line = false := (token_head f.isToken _).1

private theorem Field.isLine_line (f : Field) : f.line ≠ [] ∧ (10 : UInt8) ∉ f.line := by
  refine ⟨(token_head f.isToken _).2,?_⟩
  simp only [line,List.mem_append,List.mem_cons,not_or]
  exact ⟨token_not_mem f.isToken (by decide),by decide,by decide,f.isLine⟩

/-! ## Responses -/

/-- The fields are the expected ones; where no value is expected, any value will do. -/
def Matches (fields : List (Bytes × Bytes)) (expected : List (Text × Option Text)) : Prop :=
  List.Forall₂ (fun f e => f.1 = utf8 e.1 ∧ ∀ v, e.2 = some v → f.2 = utf8 v) fields expected

def Field.fixed (f : Field) : Text × Option Text := (f.name,some f.value)

theorem matches_parsed (fields : List Field) : Matches (fields.map Field.parsed) (fields.map Field.fixed) := by
  unfold Matches
  rw [List.forall₂_map_left_iff,List.forall₂_map_right_iff,List.forall₂_same]
  intro f _
  refine ⟨rfl,?_⟩
  intro v hv
  cases hv
  rfl

def block (lines : List Bytes) : Bytes := lines.flatMap fun l => l ++ [13,10]

theorem splitBody_eq {fields : List (Bytes × Bytes)} {n : Nat}
    (h : valuesOf "content-length" fields = [utf8 (natText n)]) (rest : Bytes) :
    splitBody fields rest = if n ≤ rest.length then some (rest.take n,rest.drop n) else none := by
  have hdigits : ∀ c ∈ natText n, c.toNat < 128 := by
    intro c hc
    have hdigit := Char.isDigit_iff_toNat.mp (natText_isDigit hc)
    simp only [Char.reduceToNat] at hdigit
    omega
  unfold splitBody
  rw [h]
  dsimp only
  rw [map_utf8_of_ascii hdigits,parseDigits_natText]
  rfl

theorem readResponse_eq_some {bs startLine body rest : Bytes} {fields : List (Bytes × Bytes)} :
    readResponse bs = some (⟨startLine,fields,body⟩,rest) ↔ ∃ lines tail,
      readHead [] bs = some (startLine::lines,tail) ∧ parseFields lines = some fields ∧
        splitBody fields tail = some (body,rest) := by
  constructor
  · intro h
    obtain ⟨⟨lines,tail⟩,hhead,h⟩ := Option.bind_eq_some_iff.mp h
    cases lines with
    | nil => cases h
    | cons l lines =>
      obtain ⟨fields',hfields,h⟩ := Option.bind_eq_some_iff.mp h
      obtain ⟨⟨body',rest'⟩,hbody,h⟩ := Option.bind_eq_some_iff.mp h
      cases h
      exact ⟨lines,tail,hhead,hfields,hbody⟩
  · rintro ⟨lines,tail,hhead,hfields,hbody⟩
    unfold readResponse
    simp [hhead,hfields,hbody]

theorem valuesOf_append (name : Text) (a b : List (Bytes × Bytes)) :
    valuesOf name (a ++ b) = valuesOf name a ++ valuesOf name b := by
  simp [valuesOf]

theorem valuesOf_eq_nil {name : Text} {fields : List (Bytes × Bytes)}
    (h : ∀ f ∈ fields, lower f.1 ≠ utf8 name) : valuesOf name fields = [] := by
  rw [valuesOf,List.filter_eq_nil_iff.mpr (by simpa using h)]
  rfl

theorem readResponse_startLine {startLine bs rest : Bytes} {lines : List Bytes} {r : Response}
    (hstart : startLine ≠ [] ∧ (10 : UInt8) ∉ startLine)
    (h : readResponse (block (startLine::lines) ++ bs) = some (r,rest)) : r.startLine = startLine := by
  obtain ⟨lines',tail,hhead,-⟩ := readResponse_eq_some.mp h
  have hone : ∀ l ∈ [startLine], l ≠ [] ∧ (10 : UInt8) ∉ l := by
    intro l hl
    rw [List.mem_singleton.mp hl]
    exact hstart
  have hsplit : block (startLine::lines) ++ bs = [startLine].flatMap (fun l => l ++ [13,10]) ++
      (block lines ++ bs) := by simp [block]
  rw [hsplit,readHead_lines hone] at hhead
  obtain ⟨p,-,hp⟩ := Option.map_eq_some_iff.mp hhead
  exact (List.cons.inj (congrArg Prod.fst hp)).1.symm

theorem readHead_fixed {startLine : Bytes} (hstart : startLine ≠ [] ∧ (10 : UInt8) ∉ startLine)
    (fields : List Field) (rest : Bytes) :
    readHead [] (block (startLine::fields.map Field.line) ++ 13::10::rest) =
      some (startLine::fields.map Field.line,rest) := by
  have hlines : ∀ l ∈ startLine::fields.map Field.line, l ≠ [] ∧ (10 : UInt8) ∉ l := by
    intro l hl
    rcases List.mem_cons.mp hl with rfl | hl
    · exact hstart
    · obtain ⟨f,-,rfl⟩ := List.mem_map.mp hl
      exact f.isLine_line
  rw [block,readHead_lines hlines,readHead_end,Option.map_some,List.append_nil]

theorem parseFields_fixed (fields : List Field) :
    parseFields (fields.map Field.line) = some (fields.map Field.parsed) := by
  have hfold : ∀ l ∈ fields.map Field.line, isFold l = false := by
    intro l hl
    obtain ⟨f,-,rfl⟩ := List.mem_map.mp hl
    exact f.isFold_line
  rw [parseFields,unfoldLines_of_not_fold hfold]
  exact Field.mapM_line fields

/-- A response with fixed fields only is read as it was written. -/
theorem readResponse_fixed {startLine : Bytes} (hstart : startLine ≠ [] ∧ (10 : UInt8) ∉ startLine)
    (fields : List Field) (body : Bytes)
    (hlength : valuesOf "content-length" (fields.map Field.parsed) = [utf8 (natText body.length)]) :
    readResponse (block (startLine::fields.map Field.line) ++ 13::10::body) =
      some (⟨startLine,fields.map Field.parsed,body⟩,[]) := by
  refine readResponse_eq_some.mpr ⟨_,body,readHead_fixed hstart fields body,parseFields_fixed fields,?_⟩
  rw [splitBody_eq hlength,if_pos (Nat.le_refl _),List.take_length,List.drop_length]

/-- The status of a start line: what stands between its first two blanks. -/
def statusOf (startLine : Bytes) : Bytes :=
  ((startLine.dropWhile fun b => b != 32).tail).takeWhile fun b => b != 32

/-- Read the answer to a request that may switch protocols. After the status 101 there is no body:
what follows the head belongs to the other protocol. -/
def readReply (bs : Bytes) : Option (Response × Bytes) := do
  let (lines,rest) ← readHead [] bs
  match lines with
  | [] => none
  | startLine::lines => do
    let fields ← parseFields lines
    if statusOf startLine = utf8 "101" then return (⟨startLine,fields,[]⟩,rest)
    else
      let (body,rest) ← splitBody fields rest
      return (⟨startLine,fields,body⟩,rest)

theorem readReply_switching {startLine : Bytes} (hstart : startLine ≠ [] ∧ (10 : UInt8) ∉ startLine)
    (hstatus : statusOf startLine = utf8 "101") (fields : List Field) (rest : Bytes) :
    readReply (block (startLine::fields.map Field.line) ++ 13::10::rest) =
      some (⟨startLine,fields.map Field.parsed,[]⟩,rest) := by
  unfold readReply
  rw [readHead_fixed hstart]
  simp only [Option.bind_eq_bind,Option.bind_some,parseFields_fixed]
  rw [if_pos hstatus]
  rfl

theorem readReply_final {startLine : Bytes} (hstart : startLine ≠ [] ∧ (10 : UInt8) ∉ startLine)
    (hstatus : statusOf startLine ≠ utf8 "101") (fields : List Field) (body rest : Bytes)
    (hlength : valuesOf "content-length" (fields.map Field.parsed) = [utf8 (natText body.length)]) :
    readReply (block (startLine::fields.map Field.line) ++ 13::10::(body ++ rest)) =
      some (⟨startLine,fields.map Field.parsed,body⟩,rest) := by
  have hbody : splitBody (fields.map Field.parsed) (body ++ rest) = some (body,rest) := by
    rw [splitBody_eq hlength,if_pos (by simp),List.take_left,List.drop_left]
  unfold readReply
  rw [readHead_fixed hstart]
  simp only [Option.bind_eq_bind,Option.bind_some,parseFields_fixed,hbody]
  rw [if_neg hstatus]
  rfl

private theorem newLines_append_cr (z : Bytes) : newLines (z ++ [13]) = newLines z := by
  induction z with
  | nil => rfl
  | cons b z ih =>
    rw [List.cons_append,newLines,newLines,ih]
    cases z <;> rfl

private theorem mapM_length {lines : List Bytes} {fields : List (Bytes × Bytes)}
    (h : lines.mapM parseField = some fields) : fields.length = lines.length := by
  induction lines generalizing fields with
  | nil =>
    cases h
    rfl
  | cons l lines ih =>
    rw [List.mapM_cons] at h
    obtain ⟨f,-,h⟩ := Option.bind_eq_some_iff.mp h
    obtain ⟨rest,hrest,h⟩ := Option.bind_eq_some_iff.mp h
    cases h
    rw [List.length_cons,List.length_cons,ih hrest]

theorem parseFields_length {lines : List Bytes} {fields : List (Bytes × Bytes)}
    (h : parseFields lines = some fields) : fields.length = lines.countP fun l => !isFold l := by
  rw [← unfoldLines_length]
  unfold parseFields at h
  dsimp only at h
  split at h
  · exact mapM_length h
  · cases h

theorem matches_free_iff {fields : List (Bytes × Bytes)} {before after : List Field} {name : Text} :
    Matches fields (before.map Field.fixed ++ (name,none)::after.map Field.fixed) ↔
      ∃ v, fields = before.map Field.parsed ++ (utf8 name,v)::after.map Field.parsed := by
  have hfield {f : Bytes × Bytes} {g : Field} :
      (f.1 = utf8 g.fixed.1 ∧ ∀ v, g.fixed.2 = some v → f.2 = utf8 v) ↔ f = g.parsed := by
    simp [Field.fixed,Field.parsed,Prod.ext_iff]
  have hfixed {fields : List (Bytes × Bytes)} {fs : List Field} :
      Matches fields (fs.map Field.fixed) ↔ fields = fs.map Field.parsed := by
    induction fs generalizing fields with
    | nil => exact List.forall₂_nil_right_iff
    | cons g fs ih =>
      rw [Matches,List.map_cons,List.forall₂_cons_right_iff]
      simp only [hfield]
      constructor
      · rintro ⟨f,rest,rfl,hrest,rfl⟩
        rw [ih.mp hrest]
        rfl
      · rintro rfl
        exact ⟨_,_,rfl,ih.mpr rfl,rfl⟩
  induction before generalizing fields with
  | nil =>
    rw [Matches,List.map_nil,List.nil_append,List.forall₂_cons_right_iff]
    constructor
    · rintro ⟨f,rest,⟨hname,-⟩,hrest,rfl⟩
      exact ⟨f.2,by rw [hfixed.mp hrest,← hname]; rfl⟩
    · rintro ⟨v,rfl⟩
      exact ⟨_,_,⟨rfl,nofun⟩,hfixed.mpr rfl,rfl⟩
  | cons g before ih =>
    rw [Matches,List.map_cons,List.cons_append,List.forall₂_cons_right_iff]
    simp only [hfield]
    constructor
    · rintro ⟨f,rest,rfl,hrest,rfl⟩
      obtain ⟨v,rfl⟩ := ih.mp hrest
      exact ⟨v,rfl⟩
    · rintro ⟨v,rfl⟩
      exact ⟨_,_,rfl,ih.mpr ⟨v,rfl⟩,rfl⟩

private theorem dropCr_field (name : Bytes) (x : Bytes) :
    ∃ y, dropCr (name ++ [58,32] ++ x) = name ++ 58::y := by
  by_cases hx : x = []
  · subst hx
    refine ⟨[32],?_⟩
    unfold dropCr
    rw [if_neg (by simp)]
    simp
  · refine ⟨32::dropCr x,?_⟩
    unfold dropCr
    rw [List.getLast?_append_of_ne_nil _ hx,List.dropLast_append_of_ne_nil hx]
    split <;> simp

/-- A response in which the value of one field is free is read as one with the other fields as they
were written if and only if every line feed of the value begins a folded line. -/
theorem readResponse_free_iff {startLine : Bytes} (hstart : startLine ≠ [] ∧ (10 : UInt8) ∉ startLine)
    (before after : List Field) {name : Text} (hname : IsToken (utf8 name)) (value body : Bytes)
    (hlength : ∀ v, valuesOf "content-length" (before.map Field.parsed ++ (utf8 name,v)::after.map Field.parsed) =
      [utf8 (natText body.length)]) :
    (∃ fields, readResponse (block (startLine::before.map Field.line) ++ (utf8 name ++ [58,32] ++ (value ++
        13::10::(block (after.map Field.line) ++ 13::10::body)))) = some (⟨startLine,fields,body⟩,[]) ∧
      Matches fields (before.map Field.fixed ++ (name,none)::after.map Field.fixed)) ↔
      newLines value = 0 := by
  have hfirst : ∀ l ∈ startLine::before.map Field.line, l ≠ [] ∧ (10 : UInt8) ∉ l := by
    intro l hl
    rcases List.mem_cons.mp hl with rfl | hl
    · exact hstart
    · obtain ⟨f,-,rfl⟩ := List.mem_map.mp hl
      exact f.isLine_line
  have hlast : ∀ l ∈ after.map Field.line, l ≠ [] ∧ (10 : UInt8) ∉ l := by
    intro l hl
    obtain ⟨f,-,rfl⟩ := List.mem_map.mp hl
    exact f.isLine_line
  have hfold (fs : List Field) : ∀ l ∈ fs.map Field.line, isFold l = false := by
    intro l hl
    obtain ⟨f,-,rfl⟩ := List.mem_map.mp hl
    exact f.isFold_line
  have hlf : (10 : UInt8) ∉ utf8 name ++ [58,32] := by
    simp only [List.mem_append,List.mem_cons,List.not_mem_nil,not_or]
    exact ⟨token_not_mem hname (by decide),by decide,by decide,not_false⟩
  have hrest : readHead [] (block (after.map Field.line) ++ 13::10::body) = some (after.map Field.line,body) := by
    rw [block,readHead_lines hlast,readHead_end,Option.map_some,List.append_nil]
  have hread : readHead [] (block (startLine::before.map Field.line) ++ (utf8 name ++ [58,32] ++ (value ++
      13::10::(block (after.map Field.line) ++ 13::10::body)))) =
      (readHead (utf8 name ++ [58,32]) (value ++ 13::10::(block (after.map Field.line) ++ 13::10::body))).map
        fun p => (startLine::before.map Field.line ++ p.1,p.2) := by
    rw [block,readHead_lines hfirst,readHead_append hlf,List.nil_append]
  constructor
  · rintro ⟨fields,hfields,hmatches⟩
    obtain ⟨v,rfl⟩ := matches_free_iff.mp hmatches
    obtain ⟨lines,tail,hhead,hparse,hbody⟩ := readResponse_eq_some.mp hfields
    have hsplit : value ++ 13::10::(block (after.map Field.line) ++ 13::10::body) =
        (value ++ [13]) ++ 10::(block (after.map Field.line) ++ 13::10::body) := by simp
    rw [hread,hsplit] at hhead
    rcases readHead_newLines (utf8 name ++ [58,32]) (value ++ [13])
        (block (after.map Field.line) ++ 13::10::body) with ⟨ls,tail',heq,hsuffix⟩ | ⟨ls,heq,hcount⟩
    · -- the head ends inside the value, so the body would have to hold what follows it
      rw [heq,Option.map_some,Option.some.injEq,Prod.mk.injEq] at hhead
      obtain ⟨-,rfl⟩ := hhead
      rw [splitBody_eq (hlength v)] at hbody
      split at hbody
      · obtain ⟨-,hdrop⟩ := Prod.mk.inj (Option.some.inj hbody)
        have hle : tail'.length ≤ body.length := List.drop_eq_nil_iff.mp hdrop
        have hlen := hsuffix.length_le
        rw [List.length_append,List.length_cons,List.length_cons] at hlen
        omega
      · cases hbody
    · -- every line feed that begins a new line begins a field
      rw [heq,hrest,Option.map_some,Option.map_some,Option.some.injEq,Prod.mk.injEq,List.cons_append,
        List.cons.injEq] at hhead
      obtain ⟨⟨-,rfl⟩,-⟩ := hhead
      have hlines := parseFields_length hparse
      have hnone (fs : List Field) : (fs.map Field.line).countP (fun l => !isFold l) = fs.length := by
        rw [List.countP_eq_length.mpr,List.length_map]
        intro l hl
        rw [hfold fs l hl]
        rfl
      rw [List.append_assoc,(token_head hname _).1,newLines_append_cr] at hcount
      rw [List.countP_append,List.countP_append,hnone,hnone,hcount] at hlines
      simp only [List.length_append,List.length_cons,List.length_map] at hlines
      simp only [Bool.false_eq_true,if_false] at hlines
      omega
  · intro hnew
    obtain ⟨b,bs,hb⟩ := List.exists_cons_of_ne_nil hname.1
    have htchar := hname.2 b (by rw [hb]; exact List.mem_cons_self)
    have hhead : (utf8 name ++ [58,32] ++ value).head? = some b := by rw [hb]; rfl
    have hcr : b ≠ 13 := by
      rintro rfl
      exact absurd htchar (by decide)
    have hlf : b ≠ 10 := by
      rintro rfl
      exact absurd htchar (by decide)
    obtain ⟨x,folds,heq,hfolds,-⟩ := readHead_folds
      (block (after.map Field.line) ++ 13::10::body) hnew hhead hcr hlf
    obtain ⟨y,hy⟩ := dropCr_field (utf8 name) x
    rw [hy,hrest,Option.map_some] at heq
    obtain ⟨j,hj⟩ := unfoldLines_folds (hfold before) (token_head hname (58::y)).1 hfolds (hfold after)
    refine ⟨before.map Field.parsed ++ (utf8 name,trimOws (y ++ j))::after.map Field.parsed,?_,
      matches_free_iff.mpr ⟨_,rfl⟩⟩
    refine readResponse_eq_some.mpr
      ⟨before.map Field.line ++ (utf8 name ++ 58::y)::(folds ++ after.map Field.line),body,?_,?_,?_⟩
    · rw [hread,heq]
      rfl
    · rw [parseFields]
      simp only [hj]
      rw [if_pos trivial,List.mapM_append,List.mapM_cons,Field.mapM_line,Field.mapM_line,List.append_assoc,
        List.cons_append,parseField_eq hname]
      rfl
    · rw [splitBody_eq (hlength _),if_pos (Nat.le_refl _),List.take_length,List.drop_length]

end Rmbtd.Http
