import ClientGen.Proofs.Endpoint.Insertions
import ClientGen.Proofs.Endpoint.TemplateLiteral

/-!
# Escapes in paths

A template literal reads a backslash of a path as the beginning of an escape, which takes some of
the characters behind it. What a run of characters between two placeholders comes to is the same
whatever the values of names are, and less than what stands there.

* `TemplateLiteral.evaluate_escape`: the value of an escape.
* `PathTemplate.Dead`: the braces of a run open nothing.
* `PathTemplate.Taken`: what an escape takes of a run.
* `PathTemplate.Kept`: what a run of characters comes to, with what is lost of it.
* `PathTemplate.exists_kept`: every run comes to something.
-/

namespace ClientGen

namespace TemplateLiteral

open Text

variable {v : String → Option (List Nat)} {c : Char} {cs : List Char}

/-- A character that is no digit makes no number. -/
theorem number?_eq_none (hc : Hexadecimal.value? c = none) (hmem : c ∈ cs) :
    Hexadecimal.number? cs = none := by
  have hfold : ∀ n, cs.foldlM (fun n c => (Hexadecimal.value? c).map (n * 16 + ·)) n = none := by
    induction cs with
    | nil => simp at hmem
    | cons d cs ih =>
      intro n
      rw [List.foldlM_cons]
      rcases List.mem_cons.mp hmem with rfl | hmem
      · rw [hc]
        rfl
      · cases Hexadecimal.value? d with
        | none => rfl
        | some k => exact ih hmem _
  exact hfold 0

/-- An escape by a code has as many digits as it should, and comes to one unit. -/
theorem codeEscape?_eq_some {digits : List Char} {count n length : Nat} {units : List Nat}
    (h : codeEscape? digits count n = some (units, length)) :
    digits.length = count ∧ (∀ c ∈ digits, Hexadecimal.value? c ≠ none) ∧ units.length = 1 ∧
      length = n := by
  rw [codeEscape?] at h
  split at h
  · obtain ⟨k, hk, heq⟩ := Option.map_eq_some_iff.mp h
    obtain ⟨rfl, rfl⟩ := Prod.mk.inj heq
    refine ⟨‹_›, fun c hc hnone => ?_, rfl, rfl⟩
    rw [number?_eq_none hnone hc] at hk
    cases hk
  · cases h

/-- A text that begins with a backtick has no value: the literal ends there. -/
theorem evaluate_tick (cs : List Char) : evaluate v ('`' :: cs) = none := by
  rw [evaluate, evaluateFrom, if_pos rfl]

/-- Behind a backslash, an escape is read, and then the text behind it. -/
theorem evaluate_escape (cs : List Char) :
    evaluate v ('\\' :: cs) = (escape? cs).bind fun (units, length) =>
      (evaluate v (cs.drop length)).map (units ++ ·) := by
  rw [evaluate, evaluateFrom, if_neg (by decide), if_pos rfl]
  simp only [evaluateFrom_eq_drop]

end TemplateLiteral

namespace PathTemplate

open TemplateLiteral Text

/-- Up to the closing brace of an unopened text stands nothing, or the whole text. -/
theorem before_of_unopened {cs : List Char} (h : Unopened cs) :
    before '}' cs = [] ∨ before '}' cs = cs := by
  rcases h with hhead | hnone
  · obtain ⟨rest, rfl⟩ := List.head?_eq_some_iff.mp hhead
    exact .inl rfl
  · refine .inr (List.takeWhile_eq_self_iff.mpr fun c hc => ?_)
    have hne : c ≠ '}' := fun heq => hnone (heq ▸ hc)
    simpa using hne

/-- An unopened text is no escape in braces. -/
theorem braceEscape?_of_unopened {cs : List Char} (h : Unopened cs) : braceEscape? cs = none := by
  rw [braceEscape?]
  rcases before_of_unopened h with hempty | hall
  · rw [hempty]
    rfl
  · rw [hall]
    simp

/-- No name is inserted where a brace is closed at once or not at all. -/
theorem evaluate_of_unopened {v : String → Option (List Nat)} (hv : v "" = none) {cs : List Char}
    (h : Unopened cs) : TemplateLiteral.evaluate v ('$' :: '{' :: cs) = none := by
  rw [TemplateLiteral.evaluate, evaluateFrom, if_neg (by decide), if_neg (by decide),
    if_pos (by simp), List.tail_cons]
  rcases before_of_unopened h with hempty | hall
  · rw [hempty]
    simp only [List.length_nil, String.ofList_nil, hv, ite_self, Option.bind_none]
  · rw [hall]
    simp

/-- A character that means nothing stands for itself, and a backtick is escaped. -/
theorem evaluate_plainChar {v : String → Option (List Nat)} {c : Char} {rest : List Char}
    (hmark : c ∉ ['\\', '\r']) (hinsert : c = '$' → rest.head? ≠ some '{') :
    TemplateLiteral.evaluate v (plainChar c ++ rest)
      = (TemplateLiteral.evaluate v rest).map (Units.ofChar c ++ ·) := by
  unfold plainChar
  split
  · rename_i htick
    rw [htick]
    exact evaluate_backtick
  · rename_i htick
    exact evaluate_cons (by simpa [htick] using hmark) hinsert

/-! ## Runs of characters -/

/-- The text of a run of characters inside a template literal. -/
def plainText (cs : List Char) : List Char := cs.flatMap plainChar

/-- What comes behind a run of characters: dollar signs and a brace, or nothing. -/
def Opens (W : List Char) : Prop := ∀ c ∈ W.head?, c = '$' ∨ c = '{'

/-- The braces in a run of characters in front of a text open nothing. -/
def Dead (W : List Char) : List Char → Prop
  | [] => True
  | c :: cs => (c = '{' → Unopened (plainText cs ++ W)) ∧ Dead W cs

section Runs

variable {S cs W : List Char} {c : Char}

theorem plainText_cons (c : Char) (cs : List Char) :
    plainText (c :: cs) = plainChar c ++ plainText cs := rfl

/-- The text of two runs of characters is their texts, one after the other. -/
theorem plainText_append (cs cs' : List Char) :
    plainText (cs ++ cs') = plainText cs ++ plainText cs' := List.flatMap_append

/-- The braces in two runs open nothing exactly if those of each open nothing in front of what
follows. -/
theorem dead_append {S' : List Char} :
    Dead W (S ++ S') ↔ Dead (plainText S' ++ W) S ∧ Dead W S' := by
  induction S with
  | nil => simp [Dead]
  | cons c S ih =>
    rw [List.cons_append, Dead, Dead, ih, plainText_append, List.append_assoc, and_assoc]

/-- Digits come from the run in front, and none of them is changed. -/
theorem exists_digits (hW : Opens W) {k : Nat} (hlength : ((plainText S ++ W).take k).length = k)
    (hdigits : ∀ c ∈ (plainText S ++ W).take k, Hexadecimal.value? c ≠ none) :
    ∃ digits rest, S = digits ++ rest ∧ digits.length = k ∧
      (plainText S ++ W).drop k = plainText rest ++ W ∧ '{' ∉ digits := by
  induction k generalizing S with
  | zero => exact ⟨[], S, rfl, rfl, rfl, List.not_mem_nil⟩
  | succ k ih =>
    cases S with
    | nil =>
      -- What comes behind the run is no digit.
      cases W with
      | nil => simp [plainText] at hlength
      | cons c W =>
        have hc := hdigits c (by simp [plainText])
        rcases hW c rfl with rfl | rfl
        · exact absurd (by decide) hc
        · exact absurd (by decide) hc
    | cons c S =>
      rw [plainText_cons, plainChar] at hlength hdigits ⊢
      split at hlength
      · -- The escape of a backtick is no digit.
        exact absurd (by decide) (hdigits '\\' (by simp_all))
      · rename_i htick
        simp only [if_neg htick, List.cons_append, List.nil_append, List.take_succ_cons,
          List.length_cons, Nat.add_right_cancel_iff] at hlength hdigits ⊢
        obtain ⟨hc, hdigits⟩ := List.forall_mem_cons.mp hdigits
        obtain ⟨digits, rest, rfl, hk, hdrop, hbrace⟩ := ih hlength hdigits
        refine ⟨c :: digits, rest, rfl, by rw [List.length_cons, hk], hdrop, ?_⟩
        rw [List.mem_cons, not_or]
        exact ⟨fun heq => hc (heq ▸ by decide), hbrace⟩

/-- What an escape takes of a run of characters and of the text behind it. -/
inductive Taken (S W : List Char) (units : List Nat) (length : Nat) : Prop
  /-- Some characters of the run, which are at least as many as what they stand for. -/
  | run {front rest : List Char} (hS : S = front ++ rest)
    (hdrop : (plainText S ++ W).drop length = plainText rest ++ W)
    (hunits : units.length ≤ (Units.ofText front).length)
    (hcount : front.count '{' ≤ units.count 123)
  /-- The first character behind the run, which stands for itself. -/
  | behind {c : Char} {W' : List Char} (hS : S = []) (hW : W = c :: W')
    (hunits : units = Units.ofChar c) (hlength : length = 1)
  /-- The backslash in front of a backtick, which is left without one. -/
  | tick {rest : List Char} (hS : S = '`' :: rest) (hlength : length = 1)

/-- A text has at least as many units as characters. -/
theorem length_le_ofText (cs : List Char) : cs.length ≤ (Units.ofText cs).length := by
  induction cs with
  | nil => exact le_rfl
  | cons c cs ih =>
    have hc := List.length_pos_of_ne_nil (Units.ofChar_ne_nil c)
    rw [Units.ofText_cons, List.length_append, List.length_cons]
    omega

/-- An escape of one character. -/
theorem taken_one {units : List Nat} (htick : c ≠ '`')
    (hunits : units.length ≤ (Units.ofChar c).length)
    (hcount : c = '{' → units = Units.ofChar c) : Taken (c :: S) W units 1 := by
  have hdrop : (plainText (c :: S) ++ W).drop 1 = plainText S ++ W := by
    rw [plainText_cons, plainChar, if_neg htick]
    rfl
  refine .run (List.singleton_append (l := S) (x := c)).symm hdrop ?_ ?_
  · rwa [Units.ofText_cons, Units.ofText, List.flatMap_nil, List.append_nil]
  · by_cases hc : c = '{'
    · rw [hcount hc, hc]
      decide
    · simp [hc]

/-- An escape by digits. -/
theorem taken_digits (hW : Opens W) (htick : c ≠ '`') (hc : c ≠ '{') {k n length : Nat}
    {units : List Nat} (h : codeEscape? ((plainText S ++ W).take k) k n = some (units, length))
    (hn : n = k + 1) : Taken (c :: S) W units length := by
  obtain ⟨hlength, hdigits, hunits, rfl⟩ := codeEscape?_eq_some h
  obtain ⟨digits, rest, rfl, hk, hdrop, hbrace⟩ := exists_digits hW hlength hdigits
  have hdropped : (plainText (c :: (digits ++ rest)) ++ W).drop length = plainText rest ++ W := by
    rw [plainText_cons, plainChar, if_neg htick, hn]
    exact hdrop
  refine .run (show c :: (digits ++ rest) = (c :: digits) ++ rest from rfl) hdropped ?_ ?_
  · have hle := length_le_ofText (c :: digits)
    rw [List.length_cons] at hle
    omega
  · rw [List.count_cons_of_ne hc, List.count_eq_zero.mpr hbrace]
    exact Nat.zero_le _

/-- No escape has braces. -/
theorem braceEscape?_of_opened (hbrace : W.head? = some '{' → braceEscape? W.tail = none)
    (hdead : Dead W S) (hopen : (plainText S ++ W).head? = some '{') :
    braceEscape? (plainText S ++ W).tail = none := by
  cases S with
  | nil => exact hbrace hopen
  | cons d S =>
    rw [plainText_cons, plainChar] at hopen ⊢
    split at hopen
    · cases hopen
    · rename_i htick
      rw [if_neg htick]
      exact braceEscape?_of_unopened (hdead.1 (Option.some.inj hopen))

/-- If a line feed comes first in what is read, it is the first character of the run. -/
theorem exists_of_head_lineFeed (hW : Opens W) (hfeed : (plainText S ++ W).head? = some '\n') :
    ∃ rest, S = '\n' :: rest := by
  cases S with
  | nil => exact absurd (hW '\n' hfeed) (by decide)
  | cons d S =>
    rw [plainText_cons, plainChar] at hfeed
    split at hfeed
    · cases hfeed
    · exact ⟨S, by rw [← Option.some.inj hfeed]⟩

/-- An escape that is read where the run begins takes characters of the run, and at most one of the
text behind it. -/
theorem taken_of_escape? (hW : Opens W)
    (hbrace : W.head? = some '{' → braceEscape? W.tail = none) (hdead : Dead W S)
    {units : List Nat} {length : Nat} (h : escape? (plainText S ++ W) = some (units, length)) :
    Taken S W units length := by
  cases S with
  | nil =>
    cases W with
    | nil => cases h
    | cons c W =>
      have hself : escape? (c :: W) = some (Units.ofChar c, 1) := by
        rcases hW c rfl with rfl | rfl <;> rfl
      obtain ⟨rfl, rfl⟩ := Prod.mk.inj (Option.some.inj (hself.symm.trans h))
      exact .behind rfl rfl rfl rfl
  | cons c S =>
    by_cases htick : c = '`'
    · subst htick
      have hslash : escape? (plainText ('`' :: S) ++ W) = some (Units.ofChar '\\', 1) := rfl
      obtain ⟨rfl, rfl⟩ := Prod.mk.inj (Option.some.inj (hslash.symm.trans h))
      exact .tick rfl rfl
    · rw [plainText_cons, plainChar, if_neg htick, List.singleton_append, List.cons_append] at h
      rw [escape?] at h
      split_ifs at h with hx hu hopen hfeed hzero hdigit hend
      · exact taken_digits hW htick (by rw [hx]; decide) h rfl
      · -- A code point in braces would need a brace that closes.
        rw [braceEscape?_of_opened hbrace hdead.2 hopen] at h
        cases h
      · exact taken_digits hW htick (by rw [hu]; decide) h rfl
      · -- Two characters may end one line.
        simp only [Bool.and_eq_true, decide_eq_true_eq] at hfeed
        obtain ⟨rest, rfl⟩ := exists_of_head_lineFeed hW hfeed.2
        obtain ⟨rfl, -⟩ := hfeed
        obtain ⟨rfl, rfl⟩ := Prod.mk.inj (Option.some.inj h)
        exact .run (show '\r' :: '\n' :: rest = ['\r', '\n'] ++ rest from rfl) rfl (Nat.zero_le _)
          (Nat.zero_le _)
      · obtain ⟨rfl, rfl⟩ := Prod.mk.inj (Option.some.inj h)
        exact taken_one htick (List.length_pos_of_ne_nil (Units.ofChar_ne_nil c)) (by simp_all)
      · obtain ⟨rfl, rfl⟩ := Prod.mk.inj (Option.some.inj h)
        exact taken_one htick (Nat.zero_le _) (fun hc => absurd hend (by rw [hc]; decide))
      · split at h
        · rename_i n hletter
          obtain ⟨rfl, rfl⟩ := Prod.mk.inj (Option.some.inj h)
          refine taken_one htick (List.length_pos_of_ne_nil (Units.ofChar_ne_nil c)) fun hc => ?_
          have hnone : letterEscapes.lookup '{' = none := by decide
          rw [hc, hnone] at hletter
          cases hletter
        · obtain ⟨rfl, rfl⟩ := Prod.mk.inj (Option.some.inj h)
          exact taken_one htick le_rfl fun _ => rfl

/-- What a run of characters comes to in front of a text, whatever the values of names are. An
escape at its end may take the first character of the text. -/
structure Kept (S W : List Char) (units : List Nat) : Prop where
  /-- Nothing is added. -/
  length_le : units.length ≤ (Units.ofText S).length
  /-- A backslash is lost. -/
  length_lt : '\\' ∈ S → units.length < (Units.ofText S).length
  /-- Braces are kept. -/
  count_le : S.count '{' ≤ units.count 123
  /-- The value is that of the text behind. -/
  evaluates : (∀ v out, v "" = none →
      TemplateLiteral.evaluate v (plainText S ++ W) = some out →
      ∃ more, TemplateLiteral.evaluate v W = some more ∧ out = units ++ more) ∨
    ∃ c W', W = c :: W' ∧ ∀ v out, v "" = none →
      TemplateLiteral.evaluate v (plainText S ++ W) = some out →
      ∃ more, TemplateLiteral.evaluate v W' = some more ∧ out = units ++ Units.ofChar c ++ more

/-- No characters come to nothing. -/
theorem kept_nil (W : List Char) : Kept [] W [] where
  length_le := le_rfl
  length_lt := fun h => absurd h List.not_mem_nil
  count_le := le_rfl
  evaluates := .inl fun _ out _ h => ⟨out, h, rfl⟩

/-- More characters in front. -/
theorem Kept.append {front rest : List Char} {units units' : List Nat} (h : Kept rest W units)
    (hlength : units'.length ≤ (Units.ofText front).length)
    (hlt : '\\' ∈ front → units'.length < (Units.ofText front).length)
    (hcount : front.count '{' ≤ units'.count 123)
    (hstep : ∀ v out, TemplateLiteral.evaluate v (plainText (front ++ rest) ++ W) = some out →
      ∃ more, TemplateLiteral.evaluate v (plainText rest ++ W) = some more ∧
        out = units' ++ more) : Kept (front ++ rest) W (units' ++ units) := by
  have htext : Units.ofText (front ++ rest) = Units.ofText front ++ Units.ofText rest :=
    List.flatMap_append
  have hle := h.length_le
  have hrest := h.count_le
  refine ⟨?_, fun hmem => ?_, ?_, ?_⟩
  · -- The front and the rest each lose no character, so neither does the whole.
    rw [htext, List.length_append, List.length_append]
    omega
  · -- A backslash stands in the front or in the rest, and one of the two gets shorter.
    rw [htext, List.length_append, List.length_append]
    rcases List.mem_append.mp hmem with hmem | hmem
    · have := hlt hmem
      omega
    · have := h.length_lt hmem
      omega
  · rw [List.count_append, List.count_append]
    omega
  · -- The rest is evaluated to its end, or the evaluation waits at the character behind it.
    rcases h.evaluates with hall | ⟨c, W', hW, hall⟩
    · refine .inl fun v out hv hout => ?_
      obtain ⟨more, hmore, rfl⟩ := hstep v out hout
      obtain ⟨later, hlater, rfl⟩ := hall v more hv hmore
      exact ⟨later, hlater, (List.append_assoc _ _ _).symm⟩
    · refine .inr ⟨c, W', hW, fun v out hv hout => ?_⟩
      obtain ⟨more, hmore, rfl⟩ := hstep v out hout
      obtain ⟨later, hlater, rfl⟩ := hall v more hv hmore
      exact ⟨later, hlater, by simp only [List.append_assoc]⟩

/-- One character in front that comes to the same whatever the values of names are. -/
theorem Kept.cons {units units' : List Nat} (h : Kept S W units) (hslash : c ≠ '\\')
    (hlength : units'.length ≤ (Units.ofChar c).length) (hcount : c = '{' → units' = Units.ofChar c)
    (hstep : ∀ v out, TemplateLiteral.evaluate v (plainText (c :: S) ++ W) = some out →
      ∃ more, TemplateLiteral.evaluate v (plainText S ++ W) = some more ∧ out = units' ++ more) :
    Kept (c :: S) W (units' ++ units) := by
  have hone : (Units.ofText [c]) = Units.ofChar c := by
    rw [Units.ofText_cons, Units.ofText, List.flatMap_nil, List.append_nil]
  refine List.singleton_append ▸ h.append (by rwa [hone]) (fun hmem => ?_) ?_ hstep
  · exact absurd (List.mem_singleton.mp hmem).symm hslash
  · by_cases hc : c = '{'
    · rw [hcount hc, hc]
      decide
    · simp [hc]

/-! ### One step -/

section Step

variable {v : String → Option (List Nat)} {units later : List Nat} {length : Nat}

/-- A backslash in the run makes an escape of what follows, and reading goes on behind it. -/
theorem evaluate_backslash_run (hescape : escape? (plainText S ++ W) = some (units, length))
    (v : String → Option (List Nat)) :
    TemplateLiteral.evaluate v (plainText ('\\' :: S) ++ W)
      = (TemplateLiteral.evaluate v ((plainText S ++ W).drop length)).map (units ++ ·) := by
  have hescaped := evaluate_escape (v := v) (plainText S ++ W)
  rw [hescape] at hescaped
  exact hescaped

/-- A backslash is lost with what its escape takes of the run. -/
theorem Kept.escape {front rest : List Char} (h : Kept rest W later)
    (hescape : escape? (plainText (front ++ rest) ++ W) = some (units, length))
    (hdrop : (plainText (front ++ rest) ++ W).drop length = plainText rest ++ W)
    (hunits : units.length ≤ (Units.ofText front).length)
    (hcount : front.count '{' ≤ units.count 123) :
    Kept ('\\' :: (front ++ rest)) W (units ++ later) := by
  have hless : units.length < (Units.ofText ('\\' :: front)).length := by
    have hpos := List.length_pos_of_ne_nil (Units.ofChar_ne_nil '\\')
    rw [Units.ofText_cons, List.length_append]
    omega
  rw [← List.cons_append]
  refine h.append hless.le (fun _ => hless) hcount fun v out hout => ?_
  have hvalue := (evaluate_backslash_run hescape v).symm.trans hout
  rw [hdrop] at hvalue
  obtain ⟨more, hmore, rfl⟩ := Option.map_eq_some_iff.mp hvalue
  exact ⟨more, hmore, rfl⟩

/-- A backslash at the end of the run takes the first character behind it. -/
theorem kept_backslash {W' : List Char} (hescape : escape? W = some (Units.ofChar c, 1))
    (hW : W = c :: W') : Kept ['\\'] W [] := by
  refine ⟨Nat.zero_le _, fun _ => Nat.zero_lt_one, le_rfl, .inr ⟨c, W', hW, fun v out _ hout => ?_⟩⟩
  have hvalue := (evaluate_backslash_run (S := []) hescape v).symm.trans hout
  obtain ⟨more, hmore, rfl⟩ := Option.map_eq_some_iff.mp hvalue
  rw [plainText, List.flatMap_nil, List.nil_append, hW] at hmore
  exact ⟨more, hmore, rfl⟩

/-- A dollar sign in the run opens no insertion, since nothing could be inserted there. -/
theorem head_ne_brace (hdead : Dead W S) (hend : S = [] → W.head? ≠ some '{') (hv : v "" = none)
    (h : TemplateLiteral.evaluate v (plainText ('$' :: S) ++ W) ≠ none) :
    (plainText S ++ W).head? ≠ some '{' := by
  intro hopen
  cases S with
  | nil => exact hend rfl hopen
  | cons d S =>
    rw [plainText_cons, plainChar] at hopen
    split at hopen
    · cases hopen
    · obtain rfl : d = '{' := Option.some.inj hopen
      exact h (evaluate_of_unopened hv (hdead.1 rfl))

/-- A character without an escape comes to itself, or to less if it is a carriage return. -/
theorem exists_units (hslash : c ≠ '\\')
    (hinsert : c = '$' → (plainText S ++ W).head? ≠ some '{') :
    ∃ units, units.length ≤ (Units.ofChar c).length ∧ (c = '{' → units = Units.ofChar c) ∧ ∀ v,
      TemplateLiteral.evaluate v (plainText (c :: S) ++ W)
        = (TemplateLiteral.evaluate v (plainText S ++ W)).map (units ++ ·) := by
  by_cases hreturn : c = '\r'
  · subst hreturn
    refine ⟨_, ?_, fun hc => absurd hc (by decide), fun v => evaluate_return⟩
    split
    · exact Nat.zero_le _
    · exact le_rfl
  · refine ⟨_, le_rfl, fun _ => rfl, fun v => ?_⟩
    rw [plainText_cons, List.append_assoc]
    exact evaluate_plainChar (by simp [hslash, hreturn]) hinsert

end Step

/-! ### The whole run -/

/-- A dollar sign at the end of the second part is at the end of the whole, so no brace may follow
it. -/
theorem dollar_behind {front rest : List Char}
    (hend : (front ++ rest).getLast? = some '$' → W.head? ≠ some '{') :
    rest.getLast? = some '$' → W.head? ≠ some '{' := by
  intro hrest
  refine hend ?_
  rw [List.getLast?_append, hrest]
  rfl

/-- A run of characters comes to the same in front of a text whatever the values of names are, if it
comes to anything. -/
theorem exists_kept (hW : Opens W) (hbrace : W.head? = some '{' → braceEscape? W.tail = none)
    (hdead : Dead W S) (hend : S.getLast? = some '$' → W.head? ≠ some '{')
    {v : String → Option (List Nat)} {out : List Nat} (hv : v "" = none)
    (h : TemplateLiteral.evaluate v (plainText S ++ W) = some out) : ∃ units, Kept S W units := by
  -- An escape may take several characters, so the induction is on the length of the run.
  induction hn : S.length using Nat.strong_induction_on generalizing S out with
  | _ n ih =>
    cases S with
    | nil => exact ⟨[], kept_nil W⟩
    | cons c S =>
      have hendS : S.getLast? = some '$' → W.head? ≠ some '{' :=
        dollar_behind (show ([c] ++ S).getLast? = _ → _ from hend)
      by_cases hslash : c = '\\'
      · subst hslash
        obtain ⟨⟨units, length⟩, hescape, -⟩ :=
          Option.bind_eq_some_iff.mp ((evaluate_escape _).symm.trans h)
        rw [evaluate_backslash_run hescape] at h
        obtain ⟨more, hmore, rfl⟩ := Option.map_eq_some_iff.mp h
        cases taken_of_escape? hW hbrace hdead.2 hescape with
        | @run front rest hS hdrop hunits hcount =>
          subst hS
          rw [hdrop] at hmore
          have hless : rest.length < n := by
            rw [← hn, List.length_cons, List.length_append]
            omega
          obtain ⟨later, hlater⟩ :=
            ih rest.length hless (dead_append.mp hdead.2).2 (dollar_behind hendS) hmore rfl
          exact ⟨units ++ later, hlater.escape hescape hdrop hunits hcount⟩
        | @behind c W' hS hW' hunits hlength =>
          subst hS hunits hlength
          exact ⟨[], kept_backslash hescape hW'⟩
        | @tick rest hS hlength =>
          -- The backtick would end the literal.
          rw [hS, hlength] at hmore
          have hnone : TemplateLiteral.evaluate v ((plainText ('`' :: rest) ++ W).drop 1) = none :=
            evaluate_tick _
          rw [hnone] at hmore
          cases hmore
      · have hinsert : c = '$' → (plainText S ++ W).head? ≠ some '{' := by
          rintro rfl
          refine head_ne_brace hdead.2 (fun hS => hend (by rw [hS]; rfl)) hv ?_
          rw [h]
          exact Option.some_ne_none out
        obtain ⟨units, hlength, hcount, hstep⟩ := exists_units hslash hinsert
        rw [hstep, Option.map_eq_some_iff] at h
        obtain ⟨more, hmore, rfl⟩ := h
        have hless : S.length < n := by
          rw [← hn]
          exact Nat.lt_succ_self _
        obtain ⟨later, hlater⟩ := ih S.length hless hdead.2 hendS hmore rfl
        refine ⟨units ++ later, hlater.cons hslash hlength hcount fun v out hout => ?_⟩
        rw [hstep, Option.map_eq_some_iff] at hout
        obtain ⟨more, hmore, heq⟩ := hout
        exact ⟨more, hmore, heq.symm⟩

end Runs

end PathTemplate

end ClientGen
