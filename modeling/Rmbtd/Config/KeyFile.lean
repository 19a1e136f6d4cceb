import Rmbtd.Config.Parser

/-!
# The secret key file

The files that hold a list of keys, and what `read_secret_keys` makes of them and of any other text.
A line is trimmed before it is looked at, so its indentation and its line end do not matter.
-/

namespace Rmbtd

/-! ## Lines of a file -/

private theorem stripSuffix_eq_some {suffix s r : Text} :
    stripSuffix suffix s = some r ↔ s = r ++ suffix := by
  simp only [stripSuffix,Option.map_eq_some_iff,stripPrefix_eq_some]
  constructor
  · rintro ⟨t,ht,rfl⟩
    rw [← List.reverse_reverse s,ht,List.reverse_append,List.reverse_reverse]
  · rintro rfl
    exact ⟨r.reverse,List.reverse_append,List.reverse_reverse r⟩

private theorem splitInclusive_append {a : Text} (ha : '\n' ∉ a) (rest : Text) :
    splitInclusive (a ++ '\n'::rest) = (a ++ ['\n'])::splitInclusive rest := by
  induction a with
  | nil => rfl
  | cons c a ih =>
    simp only [List.mem_cons,not_or] at ha
    rw [List.cons_append,splitInclusive,if_neg (Ne.symm ha.1),ih ha.2]
    rfl

private theorem splitInclusive_last {a : Text} (ha : '\n' ∉ a) (hne : a ≠ []) :
    splitInclusive a = [a] := by
  induction a with
  | nil => exact absurd rfl hne
  | cons c a ih =>
    simp only [List.mem_cons,not_or] at ha
    rw [splitInclusive,if_neg (Ne.symm ha.1)]
    cases a with
    | nil => rfl
    | cons d a => rw [ih ha.2 (by simp)]

private theorem trim_carriageReturn (a : Text) : trim (a ++ ['\r']) = trim a := by
  apply trim_append_whitespace
  intro c hc
  rw [List.mem_singleton.mp hc]
  decide

private theorem trim_stripped (a : Text) : trim ((stripSuffix "\r" a).getD a) = trim a := by
  cases h : stripSuffix "\r" a with
  | none => rfl
  | some r =>
    rw [stripSuffix_eq_some.mp h]
    exact (trim_carriageReturn r).symm

private theorem lines_append {a : Text} (ha : '\n' ∉ a) (rest : Text) :
    lines (a ++ '\n'::rest) = (stripSuffix "\r" a).getD a::lines rest := by
  have hstrip : stripSuffix "\n" (a ++ ['\n']) = some a := stripSuffix_eq_some.mpr rfl
  rw [lines,splitInclusive_append ha,List.map_cons,hstrip]
  rfl

private theorem lines_last {a : Text} (ha : '\n' ∉ a) (hne : a ≠ []) : lines a = [a] := by
  have hstrip : stripSuffix "\n" a = none := by
    rw [Option.eq_none_iff_forall_not_mem]
    intro r hr
    rw [stripSuffix_eq_some.mp hr] at ha
    exact ha (List.mem_append_right r (by decide))
  rw [lines,splitInclusive_last ha hne,List.map_singleton,hstrip]

/-! ## Reading a line -/

/-- A blank line, a comment or a line that is too short. -/
def IsSkipped (line : Text) : Prop :=
  trim line = [] ∨ (trim line).head? = some '#' ∨ byteLen (trim line) < 5

theorem readSecretKey_congr {a b : Text} (h : trim a = trim b) : readSecretKey a = readSecretKey b := by
  rw [readSecretKey,readSecretKey,h]

theorem readSecretKey_eq_none {line : Text} : readSecretKey line = none ↔ IsSkipped line := by
  have hblank : trim line = [] → byteLen (trim line) < 5 := by
    intro h
    rw [h]
    decide
  simp only [readSecretKey,IsSkipped]
  split
  · next h => simp [h.symm]
  · next h =>
    obtain ⟨hlen,hstart⟩ := not_or.mp h
    cases splitOnce " " (trim line) with
    | none => simpa [hlen,hstart] using fun hnil => hlen (hblank hnil)
    | some p => simpa [hlen,hstart] using fun hnil => hlen (hblank hnil)

theorem readSecretKey_some {line : Text} {k : SecretKey} (h : readSecretKey line = some k) :
    k.key ≠ [] ∧ ' ' ∉ k.key ∧ Trimmed k.label := by
  have hkept : ¬IsSkipped line := by
    rw [← readSecretKey_eq_none,h]
    simp
  have htrimmed := trimmed_trim line
  simp only [readSecretKey] at h
  split at h
  · cases h
  · cases hsplit : splitOnce " " (trim line) with
    | none =>
      rw [hsplit] at h
      cases h
      refine ⟨fun hnil => hkept (Or.inl hnil),?_,by simp [Trimmed]⟩
      intro hmem
      exact splitOnce_eq_none.mp hsplit ((List.singleton_infix_iff _ _).mpr hmem)
    | some p =>
      obtain ⟨key,label⟩ := p
      rw [hsplit] at h
      cases h
      obtain ⟨hline,hspace⟩ := splitOnce_singleton.mp hsplit
      refine ⟨?_,hspace,trimmed_trim label⟩
      rintro rfl
      rw [hline] at htrimmed
      exact htrimmed.1 ' ' rfl (by decide)

/-! ## Files of keys -/

def keysIn (content : Text) : List SecretKey := (lines content).filterMap readSecretKey

private theorem keysIn_append {a : Text} (ha : '\n' ∉ a) (rest : Text) :
    keysIn (a ++ '\n'::rest) = (readSecretKey a).toList ++ keysIn rest := by
  rw [keysIn,lines_append ha,List.filterMap_cons,readSecretKey_congr (trim_stripped a)]
  cases readSecretKey a with
  | none => rfl
  | some k => rfl

private theorem keysIn_last {a : Text} (ha : '\n' ∉ a) : keysIn a = (readSecretKey a).toList := by
  by_cases hne : a = []
  · subst hne
    rfl
  · rw [keysIn,lines_last ha hne,List.filterMap_cons]
    cases readSecretKey a with
    | none => rfl
    | some k => rfl

theorem readSecretKeys_eq {readToString : Text → Except Text Text} {path content : Text}
    (hread : readToString path = .ok content) : readSecretKeys readToString path =
      if keysIn content = [] then .error ("no valid keys found in '".toList ++ path ++ "'".toList)
      else .ok (keysIn content) := by
  rw [readSecretKeys,hread]
  rfl

/-! ## Writing a file -/

/-- The text of a key, with further spaces before its label. -/
def SecretKey.text (k : SecretKey) (gap : Nat) : Text :=
  k.key ++ if k.label = [] then [] else ' '::(List.replicate gap ' ' ++ k.label)

/-- A key that a line can hold. -/
structure SecretKey.Writable (k : SecretKey) : Prop where
  key_ne_nil : k.key ≠ []
  key_unbroken : ∀ c ∈ k.key, ¬isWhitespace c
  key_start : k.key.head? ≠ some '#'
  label_line : '\n' ∉ k.label
  label_trimmed : Trimmed k.label
  length : 5 ≤ byteLen (k.text 0)

abbrev WritableKey := {k : SecretKey // k.Writable}

abbrev Blanks := {t : Text // ∀ c ∈ t, c = ' ' ∨ c = '\t'}

abbrev SkippedLine := {line : Text // '\n' ∉ line ∧ IsSkipped line}

inductive FileLine
  | key (k : WritableKey) (indent : Blanks) (gap : Nat) (trail : Blanks)
  | skipped (line : SkippedLine)

def FileLine.text : FileLine → Text
  | .key k indent gap trail => indent.val ++ k.val.text gap ++ trail.val
  | .skipped line => line.val

def FileLine.key? : FileLine → Option SecretKey
  | .key k _ _ _ => some k.val
  | .skipped _ => none

inductive LineEnd
  | lf
  | crlf

def LineEnd.text : LineEnd → Text
  | .lf => "\n"
  | .crlf => "\r\n"

/-- A file of keys; the last line may lack its end. -/
structure KeyFile where
  lines : List (FileLine × LineEnd)
  last : Option FileLine

def KeyFile.text (file : KeyFile) : Text :=
  file.lines.flatMap (fun l => l.1.text ++ l.2.text) ++ (file.last.map FileLine.text).getD []

def KeyFile.keys (file : KeyFile) : List SecretKey :=
  file.lines.filterMap (fun l => l.1.key?) ++ (file.last.bind FileLine.key?).toList

private theorem Blanks.whitespace (b : Blanks) : ∀ c ∈ b.val, isWhitespace c := by
  intro c hc
  rcases b.property c hc with rfl | rfl
  · decide
  · decide

private theorem newline_not_mem_blanks (b : Blanks) : '\n' ∉ b.val := by
  intro h
  rcases b.property _ h with h | h
  · cases h
  · cases h

private theorem SecretKey.Writable.text_trimmed {k : SecretKey} (h : k.Writable) (gap : Nat) :
    Trimmed (k.text gap) := by
  constructor
  · intro c hc
    rw [text,List.head?_append_of_ne_nil _ h.key_ne_nil] at hc
    exact h.key_unbroken c (List.mem_of_head? hc)
  · intro c hc
    by_cases hlabel : k.label = []
    · rw [text,if_pos hlabel,List.append_nil] at hc
      exact h.key_unbroken c (List.mem_of_getLast? hc)
    · have hlast : (k.text gap).getLast? = k.label.getLast? := by
        rw [text,if_neg hlabel,← List.cons_append,← List.append_assoc,
          List.getLast?_append_of_ne_nil _ hlabel]
      rw [hlast] at hc
      exact h.label_trimmed.2 c hc

private theorem SecretKey.text_length (k : SecretKey) (gap : Nat) :
    byteLen (k.text 0) ≤ byteLen (k.text gap) := by
  by_cases hlabel : k.label = []
  · simp [text,hlabel]
  · simp only [text,if_neg hlabel,byteLen,utf8_append,utf8_cons,List.length_append,
      List.replicate_zero,utf8_nil,List.length_nil]
    omega

private theorem SecretKey.Writable.newline_not_mem {k : SecretKey} (h : k.Writable) (gap : Nat) :
    '\n' ∉ k.text gap := by
  have hkey : '\n' ∉ k.key := fun hmem => h.key_unbroken _ hmem (by decide)
  by_cases hlabel : k.label = []
  · simpa [text,hlabel] using hkey
  · simp [text,hlabel,hkey,h.label_line]

private theorem SecretKey.Writable.readSecretKey_text {k : SecretKey} (h : k.Writable) (gap : Nat) :
    readSecretKey (k.text gap) = some k := by
  have hspace : ' ' ∉ k.key := fun hmem => h.key_unbroken _ hmem (by decide)
  have hstart : (k.text gap).head? ≠ some '#' := by
    rw [text,List.head?_append_of_ne_nil _ h.key_ne_nil]
    exact h.key_start
  have hlen : ¬byteLen (k.text gap) < 5 := not_lt.mpr (h.length.trans (k.text_length gap))
  simp only [readSecretKey,(h.text_trimmed gap).trim_eq,hstart,hlen,or_self,if_false]
  by_cases hlabel : k.label = []
  · have hsplit : splitOnce " " (k.text gap) = none := by
      rw [text,if_pos hlabel,List.append_nil]
      exact splitOnce_eq_none.mpr fun hinfix => hspace ((List.singleton_infix_iff _ _).mp hinfix)
    simp only [hsplit,Option.some.injEq]
    rw [text,if_pos hlabel,List.append_nil,← hlabel]
  · have hsplit : splitOnce " " (k.text gap) = some (k.key,List.replicate gap ' ' ++ k.label) := by
      apply splitOnce_singleton.mpr
      rw [text,if_neg hlabel]
      exact ⟨rfl,hspace⟩
    have hgap : ∀ c ∈ List.replicate gap ' ', isWhitespace c := by
      intro c hc
      rw [List.eq_of_mem_replicate hc]
      decide
    simp only [hsplit,trim_whitespace_append _ hgap,h.label_trimmed.trim_eq]

private theorem FileLine.newline_not_mem (l : FileLine) : '\n' ∉ l.text := by
  cases l with
  | skipped line => exact line.property.1
  | key k indent gap trail =>
    simp only [text,List.mem_append,not_or]
    exact ⟨⟨newline_not_mem_blanks indent,k.property.newline_not_mem gap⟩,newline_not_mem_blanks trail⟩

theorem readSecretKey_line (l : FileLine) : readSecretKey l.text = l.key? := by
  cases l with
  | skipped line => exact readSecretKey_eq_none.mpr line.property.2
  | key k indent gap trail =>
    have htrim : trim (FileLine.key k indent gap trail).text = trim (k.val.text gap) := by
      rw [FileLine.text,trim_append_whitespace _ _ trail.whitespace,
        trim_whitespace_append _ indent.whitespace]
    rw [readSecretKey_congr htrim,k.property.readSecretKey_text gap]
    rfl

private theorem keysIn_line (l : FileLine) (e : LineEnd) (rest : Text) :
    keysIn (l.text ++ e.text ++ rest) = l.key?.toList ++ keysIn rest := by
  cases e with
  | lf =>
    have hline : l.text ++ LineEnd.lf.text ++ rest = l.text ++ '\n'::rest := by simp [LineEnd.text]
    rw [hline,keysIn_append l.newline_not_mem,readSecretKey_line]
  | crlf =>
    have hline : l.text ++ LineEnd.crlf.text ++ rest = (l.text ++ ['\r']) ++ '\n'::rest := by
      simp [LineEnd.text]
    have hopen : '\n' ∉ l.text ++ ['\r'] := by simp [l.newline_not_mem]
    rw [hline,keysIn_append hopen,readSecretKey_congr (trim_carriageReturn _),readSecretKey_line]

theorem keysIn_text (file : KeyFile) : keysIn file.text = file.keys := by
  obtain ⟨ls,last⟩ := file
  induction ls with
  | nil =>
    cases last with
    | none => rfl
    | some l =>
      have hlast := keysIn_last l.newline_not_mem
      rw [readSecretKey_line] at hlast
      exact hlast
  | cons l ls ih =>
    have htext : KeyFile.text ⟨l::ls,last⟩ = l.1.text ++ l.2.text ++ KeyFile.text ⟨ls,last⟩ := by
      simp [KeyFile.text]
    rw [htext,keysIn_line,ih,KeyFile.keys,KeyFile.keys,List.filterMap_cons]
    cases l.1.key? with
    | none => rfl
    | some k => rfl

/-! ## Reading a file -/

private theorem keysIn_eq_nil {content : Text} :
    keysIn content = [] ↔ ∀ line ∈ lines content, IsSkipped line := by
  simp only [keysIn,List.filterMap_eq_nil_iff,readSecretKey_eq_none]

/-- The keys of a file are read in their order, if there are any. No text at all gives a key with an
empty secret, a space in it or a label that is not trimmed, and only lines that are skipped give an
error. -/
theorem readSecretKeys_reads (readToString : Text → Except Text Text) (path content : Text)
    (hread : readToString path = .ok content) :
    (∀ file : KeyFile, content = file.text → readSecretKeys readToString path =
      if file.keys = [] then .error ("no valid keys found in '".toList ++ path ++ "'".toList)
      else .ok file.keys) ∧
    (∀ keys, readSecretKeys readToString path = .ok keys →
      ∀ k ∈ keys, k.key ≠ [] ∧ ' ' ∉ k.key ∧ Trimmed k.label) ∧
    ((∃ e, readSecretKeys readToString path = .error e) ↔
      ∀ line ∈ lines content, IsSkipped line) := by
  rw [readSecretKeys_eq hread,← keysIn_eq_nil]
  refine ⟨?_,?_,?_⟩
  · rintro file rfl
    rw [keysIn_text]
  · intro keys hkeys k hk
    split at hkeys
    · cases hkeys
    · cases hkeys
      obtain ⟨line,-,hline⟩ := List.mem_filterMap.mp hk
      exact readSecretKey_some hline
  · split
    · next hnil => exact iff_of_true ⟨_,rfl⟩ hnil
    · next hsome =>
      refine iff_of_false ?_ hsome
      rintro ⟨e,he⟩
      cases he

theorem readSecretKeys_reads_sample :
    readSecretKeys
      (fun _ => .ok " # keys\r\n\tmysecretkey1   production \r\n\nkey\noldsecretkey staging") "secret.key" =
      .ok [⟨"mysecretkey1","production"⟩,⟨"oldsecretkey","staging"⟩] := by
  have hunbroken (t : Text) (h : t.all fun c => !isWhitespace c) : ∀ c ∈ t, ¬isWhitespace c := by
    simpa using h
  have hproduction : Trimmed "production" := by
    constructor
    · rintro c ⟨⟩
      decide
    · rintro c ⟨⟩
      decide
  have hstaging : Trimmed "staging" := by
    constructor
    · rintro c ⟨⟩
      decide
    · rintro c ⟨⟩
      decide
  let first : WritableKey := ⟨⟨"mysecretkey1","production"⟩,by decide,hunbroken _ (by decide),by decide,
    by decide,hproduction,by decide⟩
  let second : WritableKey := ⟨⟨"oldsecretkey","staging"⟩,by decide,hunbroken _ (by decide),by decide,
    by decide,hstaging,by decide⟩
  let noBlanks : Blanks := ⟨[],by simp⟩
  let file : KeyFile := ⟨[
    (.skipped ⟨" # keys",by decide,Or.inr (Or.inl rfl)⟩,.crlf),
    (.key first ⟨"\t",by simp⟩ 2 ⟨" ",by simp⟩,.crlf),
    (.skipped ⟨"",by decide,Or.inl rfl⟩,.lf),
    (.skipped ⟨"key",by decide,Or.inr (Or.inr (by decide))⟩,.lf)],
    some (.key second noBlanks 0 noBlanks)⟩
  exact (readSecretKeys_reads (fun _ => .ok file.text) "secret.key" file.text rfl).1 file rfl

/-- A file without keys is an error. -/
theorem readSecretKeys_no_keys : ¬∀ file : KeyFile,
    readSecretKeys (fun _ => .ok file.text) "secret.key" = .ok file.keys := by
  intro h
  cases h ⟨[(.skipped ⟨"# no keys yet",by decide,Or.inr (Or.inl rfl)⟩,.lf)],none⟩

end Rmbtd
