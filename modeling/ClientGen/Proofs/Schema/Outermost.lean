import ClientGen.Proofs.Schema.Printing

/-!
# Members of the outermost union

A type is printed as one text, with a bar between the members of a union. A reader finds the members
of the outermost union by leaving out the bars in parentheses, in angle brackets and in quoted
literals.

* `Nesting`: what is open where a reader stands, with `Nesting.step`.
* `TypeExpr.outermost`: the members of the outermost union, as texts.
* `Whole`: a text that is one member, wherever it stands.
* `outermost_joined`: a reader finds the members that were put together.
-/

namespace ClientGen

/-- What is open where a reader of a type stands. -/
structure Nesting where
  /-- The parentheses and angle brackets that are open. -/
  depth : Nat := 0
  /-- The quote that is open. -/
  quote : Option Char := none
  /-- The next character is escaped. -/
  escaped : Bool := false
deriving DecidableEq

namespace Nesting

/-- One more character is read. -/
def step (n : Nesting) (c : Char) : Nesting :=
  match n.quote with
  | some q =>
    if n.escaped then { n with escaped := false }
    else if c = '\\' then { n with escaped := true }
    else if c = q then { n with quote := none }
    else n
  | none =>
    if c = '\'' ∨ c = '"' then { n with quote := some c }
    else if c = '(' ∨ c = '<' then { n with depth := n.depth + 1 }
    else if c = ')' ∨ c = '>' then { n with depth := n.depth - 1 }
    else n

end Nesting

namespace TypeExpr

/-- The texts between the bars that stand where nothing is open. The first argument counts the
characters that still belong to the bar read last. -/
def outermost : Nat → Nesting → List Char → List (List Char)
  | _, _, [] => [[]]
  | skip + 1, n, _ :: cs => outermost skip n cs
  | 0, n, c :: cs =>
    if n = {} ∧ Text.startsWith bar.toList (c :: cs) then [] :: outermost 2 n cs
    else Text.consFirst c (outermost 0 (n.step c) cs)

end TypeExpr

open TypeExpr

/-! ## Reading a text -/

/-- Reading a text leads from one nesting to another one, and no stroke of a bar is met where
nothing is open. -/
def Guards : Nesting → List Char → Nesting → Prop
  | n, [], n' => n = n'
  | n, c :: cs, n' => (c = '|' → n ≠ {}) ∧ Guards (n.step c) cs n'

section Reading

variable {n n' n'' : Nesting} {p q cs : List Char} {c : Char}

/-- Two texts read one after another lead to where the second one leads from where the first one
led. -/
theorem Guards.append (h : Guards n p n') (h' : Guards n' q n'') : Guards n (p ++ q) n'' := by
  induction p generalizing n with
  | nil =>
    obtain rfl := h
    exact h'
  | cons c p ih => exact ⟨h.1, ih h.2⟩

/-- A text starts with a bar exactly if it has a blank, a stroke and a blank in front. -/
theorem startsWith_bar_iff :
    Text.startsWith bar.toList cs = true ↔ ∃ rest, cs = ' ' :: '|' :: ' ' :: rest := by
  rw [Text.startsWith, List.isPrefixOf_iff_prefix]
  exact ⟨fun ⟨rest, h⟩ => ⟨rest, h.symm⟩, fun ⟨rest, h⟩ => ⟨rest, h.symm⟩⟩

/-- No bar starts in a text that shows no stroke of one, unless the stroke comes right behind it. -/
theorem not_startsWith_bar (h : Guards {} (c :: p) n') (hq : q.head? ≠ some '|') :
    ¬ Text.startsWith bar.toList (c :: (p ++ q)) = true := by
  intro hstart
  obtain ⟨rest, hbar⟩ := startsWith_bar_iff.mp hstart
  obtain ⟨rfl, hstroke⟩ := List.cons.inj hbar
  cases p with
  | nil =>
    rw [List.nil_append] at hstroke
    exact hq (by rw [hstroke]; rfl)
  | cons d p =>
    obtain ⟨rfl, -⟩ := List.cons.inj hstroke
    exact h.2.1 rfl rfl

/-- The text that is read so belongs to one member. -/
theorem outermost_append (h : Guards n p n') (hq : q.head? ≠ some '|') :
    outermost 0 n (p ++ q) = p.foldr Text.consFirst (outermost 0 n' q) := by
  induction p generalizing n with
  | nil =>
    obtain rfl := h
    rfl
  | cons c p ih =>
    rw [List.cons_append, outermost, if_neg, ih h.2, List.foldr_cons]
    rintro ⟨rfl, hstart⟩
    exact not_startsWith_bar h hq hstart

/-- Characters put in front one by one are put in front of the first text together. -/
theorem foldr_consFirst (p w : List Char) (ws : List (List Char)) :
    p.foldr Text.consFirst (w :: ws) = (p ++ w) :: ws := by
  induction p with
  | nil => rfl
  | cons c p ih => rw [List.foldr_cons, ih, Text.consFirst, List.cons_append]

/-- In front of a bar, the text that is read so is a member. -/
theorem outermost_append_bar (h : Guards {} p {}) (q : List Char) :
    outermost 0 {} (p ++ bar.toList ++ q) = p :: outermost 0 {} q := by
  have hbar : outermost 0 {} (bar.toList ++ q) = [] :: outermost 0 {} q := by
    simp [bar, outermost, Text.startsWith]
  rw [List.append_assoc, outermost_append h (by simp [bar]), hbar, foldr_consFirst,
    List.append_nil]

/-- A text with no bar where nothing is open is one member. -/
theorem outermost_self (h : Guards {} p {}) : outermost 0 {} p = [p] := by
  have hself := outermost_append h (q := []) (by simp)
  rwa [List.append_nil, outermost, foldr_consFirst, List.append_nil] at hself

end Reading

/-! ## Texts that are one member -/

/-- A reader is as deep behind the text as in front of it, and meets no stroke of a bar on the way
where nothing else is open. -/
structure Level (p : List Char) : Prop where
  /-- The text leads back to where it starts. -/
  guards : ∀ d, Guards { depth := d } p { depth := d }

/-- A text that is one member wherever it stands, and does not end with the stroke of a bar. -/
structure Whole (p : List Char) : Prop where
  /-- The text leads back to where it starts. -/
  level : Level p
  /-- The last character is no stroke of a bar. -/
  last : p.getLast? ≠ some '|'

section Level

variable {p q : List Char} {ps : List (List Char)}

/-- The empty text leaves a reader as deep as it was. -/
theorem level_nil : Level [] := ⟨fun _ => rfl⟩

/-- Texts that leave a reader as deep as it was do so together. -/
theorem Level.append (h : Level p) (h' : Level q) : Level (p ++ q) :=
  ⟨fun d => (h.guards d).append (h'.guards d)⟩

/-- The characters that open or close something, and the stroke of a bar. -/
def marks : List Char := ['\'', '"', '(', ')', '<', '>', '|']

/-- A text that means nothing to a reader of members. -/
def Plain (cs : List Char) : Prop := ∀ c ∈ cs, c ∉ marks

instance : DecidablePred Plain := fun cs => List.decidableBAll (· ∉ marks) cs

/-- A text that means nothing to a reader of members leaves it as deep as it was. -/
theorem level_of_plain (h : Plain p) : Level p := by
  refine ⟨fun d => ?_⟩
  induction p with
  | nil => rfl
  | cons c p ih =>
    obtain ⟨hc, hp⟩ := List.forall_mem_cons.mp h
    simp only [marks, List.mem_cons, List.not_mem_nil, or_false, not_or] at hc
    refine ⟨fun hstroke => absurd hstroke hc.2.2.2.2.2.2, ?_⟩
    have hstep : Nesting.step { depth := d } c = { depth := d } := by
      simp [Nesting.step, hc]
    rw [hstep]
    exact ih hp

/-- A text that means nothing to a reader of members is one member. -/
theorem whole_of_plain (h : Plain p) : Whole p where
  level := level_of_plain h
  last hlast := h '|' (List.mem_of_getLast? hlast) (by decide)

/-- A text that leaves a reader as deep as it was is one member, if it does not end with the stroke
of a bar. -/
theorem Level.whole_concat {c : Char} (h : Level (p ++ [c])) (hstroke : c ≠ '|') :
    Whole (p ++ [c]) where
  level := h
  last hlast := by
    rw [List.getLast?_concat] at hlast
    exact hstroke (Option.some.inj hlast)

/-- Inside of something that is open, bars are of no account. -/
theorem guards_joined (h : ∀ p ∈ ps, Whole p) (d : Nat) :
    Guards { depth := d + 1 } (Text.joined bar.toList ps) { depth := d + 1 } := by
  have hbar : Guards { depth := d + 1 } bar.toList { depth := d + 1 } :=
    ⟨nofun, fun _ hnone => absurd (congrArg Nesting.depth hnone) (Nat.succ_ne_zero d), nofun, rfl⟩
  induction ps with
  | nil => rfl
  | cons p ps ih =>
    obtain ⟨hp, hps⟩ := List.forall_mem_cons.mp h
    cases ps with
    | nil => exact hp.level.guards _
    | cons p' ps =>
      rw [Text.joined_cons_cons]
      exact ((hp.level.guards _).append hbar).append (ih hps)

/-- Parentheses and angle brackets make one member of what is inside. -/
theorem level_enclosed (h : ∀ d, Guards { depth := d + 1 } p { depth := d + 1 }) {a b : Char}
    (hab : (a = '(' ∧ b = ')') ∨ (a = '<' ∧ b = '>')) : Level (a :: (p ++ [b])) := by
  refine ⟨fun d => ?_⟩
  have hopen : Guards { depth := d } [a] { depth := d + 1 } := by
    rcases hab with ⟨rfl, -⟩ | ⟨rfl, -⟩ <;> exact ⟨nofun, rfl⟩
  have hclose : Guards { depth := d + 1 } [b] { depth := d } := by
    rcases hab with ⟨-, rfl⟩ | ⟨-, rfl⟩ <;> exact ⟨nofun, rfl⟩
  exact (hopen.append (h d)).append hclose

/-- A reader finds the members that were put together. -/
theorem outermost_joined (hne : ps ≠ []) (h : ∀ p ∈ ps, Whole p) :
    outermost 0 {} (Text.joined bar.toList ps) = ps := by
  induction ps with
  | nil => exact absurd rfl hne
  | cons p ps ih =>
    obtain ⟨hp, hps⟩ := List.forall_mem_cons.mp h
    cases ps with
    | nil => exact outermost_self (hp.level.guards 0)
    | cons p' ps =>
      rw [Text.joined_cons_cons, outermost_append_bar (hp.level.guards 0),
        ih (List.cons_ne_nil _ _) hps]

end Level

/-! ## Quoted texts -/

section Quoted

variable {d : Nat} {q : Char} {cs : List Char}

/-- Between quotes, characters that mean nothing there are passed by. -/
theorem guards_plain_quoted (h : ∀ c ∈ cs, c ≠ '\\' ∧ c ≠ q) :
    Guards { depth := d, quote := some q } cs { depth := d, quote := some q } := by
  induction cs with
  | nil => rfl
  | cons c cs ih =>
    obtain ⟨hc, hcs⟩ := List.forall_mem_cons.mp h
    refine ⟨fun _ hnone => by simp at hnone, ?_⟩
    have hstep : Nesting.step { depth := d, quote := some q } c
        = { depth := d, quote := some q } := by
      simp [Nesting.step, hc]
    rw [hstep]
    exact ih hcs

/-- Between quotes, an escaped character is passed by, whichever it is. -/
theorem guards_escaped (d : Nat) (q c : Char) :
    Guards { depth := d, quote := some q } ['\\', c] { depth := d, quote := some q } := by
  refine ⟨nofun, ?_⟩
  have hstep : Nesting.step { depth := d, quote := some q } '\\'
      = { depth := d, quote := some q, escaped := true } := rfl
  rw [hstep]
  exact ⟨fun _ hnone => by simp at hnone, rfl⟩

/-- A quoted text is one member if what stands for each character is passed by. -/
theorem level_quoted {escape : Char → List Char} (hq : q = '\'' ∨ q = '"')
    (h : ∀ d c, Guards { depth := d, quote := some q } (escape c)
      { depth := d, quote := some q }) (cs : List Char) :
    Level (q :: (cs.flatMap escape ++ [q])) := by
  refine ⟨fun d => ?_⟩
  have hopen : Guards { depth := d } [q] { depth := d, quote := some q } := by
    rcases hq with rfl | rfl <;> exact ⟨nofun, rfl⟩
  have hclose : Guards { depth := d, quote := some q } [q] { depth := d } := by
    rcases hq with rfl | rfl <;> exact ⟨nofun, rfl⟩
  have hinside : Guards { depth := d, quote := some q } (cs.flatMap escape)
      { depth := d, quote := some q } := by
    induction cs with
    | nil => rfl
    | cons c cs ih =>
      rw [List.flatMap_cons]
      exact (h d c).append ih
  exact (hopen.append hinside).append hclose

end Quoted

end ClientGen
