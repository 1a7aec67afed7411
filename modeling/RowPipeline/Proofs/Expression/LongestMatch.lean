import Mathlib.Computability.Primrec.List
import RowPipeline.Proofs.Expression.TokenEnds
import RowPipeline.Proofs.Text.Matching
import RowPipeline.Text.Pattern.Notation

/-!
# Longest matches

The token patterns as regular expressions, in the order in which they are tried (`Kind.all`), and the texts
that they describe (`Kind.matches_iff`). Wherever a pattern describes the front of a text, the reader takes a
run that is at least as long (`Kind.Fits.exists_scan?`), and the run it takes is what the first pattern that
matches describes (`exists_isFirst_of_scan?`). So the order of the patterns decides no more than the type of a token:
a name and the two forms of a number are the only ones that can start with the same character, a name takes the
digits in front of its first letter, and a decimal takes those in front of its point.
-/

namespace RowPipeline.Lexer

open Text

/-! ### The patterns -/

/-- What a pattern looks for. -/
inductive Kind where
  | blanks
  | sign (c : Char)
  | quoted (quote : Char)
  | name
  | decimal
  | whole
  deriving DecidableEq

namespace Kind

/-- The kinds that start with a character of their own. -/
def symbols : List Kind :=
  [blanks, sign '+', sign '-', sign '*', sign '/', quoted '"', quoted '\'']

/-- The kinds in the order in which they are tried. -/
def all : List Kind := symbols ++ [name, decimal, whole]

/-- The blanks of any script. -/
def blankSet : CharSet := ⟨[.blank true], false⟩

/-- The digits of any script. -/
def digitSet : CharSet := ⟨[.digit true], false⟩

/-- The ASCII letters. -/
def letterSet : CharSet := ⟨[.range 'a' 'z', .range 'A' 'Z'], false⟩

/-- The ASCII letters and digits. -/
def wordSet : CharSet := ⟨[.range 'a' 'z', .range 'A' 'Z', .range '0' '9'], false⟩

open Pattern in
/-- One character of a set or more. -/
def oneOrMore (set : CharSet) : Pattern := (one set).seq (many (one set))

open Pattern in
/-- A hyphen and the word behind it. -/
def joinedWord : Pattern := (one (.single '-')).seq (oneOrMore wordSet)

open Pattern in
/-- The pattern of a kind. -/
def pattern : Kind → Pattern
  | blanks => oneOrMore blankSet
  | sign c => one (.single c)
  | quoted q => ((one (.single q)).seq (oneOrMore ⟨[.range q q], true⟩)).seq (one (.single q))
  | name => (((many (one ⟨[.range '0' '9'], false⟩)).seq (one letterSet)).seq (many (one wordSet))).seq
      (many joinedWord)
  | decimal => ((oneOrMore digitSet).seq (one (.single '.'))).seq (oneOrMore digitSet)
  | whole => oneOrMore digitSet

/-- The patterns as they are written. -/
def spellings : List String := ["\\s+", "\\+", "-", "\\*", "/", "\"[^\"]+\"", "'[^']+'",
  "[0-9]*[a-zA-Z][a-zA-Z0-9]*(?:-[a-zA-Z0-9]+)*", "\\d+\\.\\d+", "\\d+"]

theorem read?_spellings : spellings.map Pattern.read? = all.map fun k => some k.pattern := by
  cbv

/-- What a run of a kind says; blanks say nothing. -/
def lexeme? : Kind → List Char → Option Lexeme
  | blanks, _ => none
  | sign c, _ => operator? c
  | quoted _, run => some (.quoted (unquote run))
  | name, run => some (.name (String.ofList run))
  | decimal, run => (literal? run).map .number
  | whole, run => (literal? run).map .number

end Kind

/-! ### The texts of the patterns -/

/-- Letters and digits that go on behind single hyphens. -/
inductive Joined : List Char → Prop
  | done : Joined []
  | word {c : Char} {cs : List Char} (hc : isAsciiWord c) (h : Joined cs) : Joined (c :: cs)
  | join {c : Char} {cs : List Char} (hc : isAsciiWord c) (h : Joined cs) : Joined ('-' :: c :: cs)

namespace Kind

/-- The texts of a kind. -/
def Fits : Kind → List Char → Prop
  | blanks, run => run ≠ [] ∧ ∀ c ∈ run, isBlank c
  | sign c, run => run = [c]
  | quoted q, run => ∃ text, text ≠ [] ∧ q ∉ text ∧ run = q :: (text ++ [q])
  | name, run => ∃ ds l tail, (∀ c ∈ ds, isAsciiDigit c) ∧ isAsciiLetter l ∧ Joined tail ∧
      run = ds ++ l :: tail
  | decimal, run => ∃ ds fs, (ds ≠ [] ∧ ∀ c ∈ ds, isDigit c) ∧ (fs ≠ [] ∧ ∀ c ∈ fs, isDigit c) ∧
      run = ds ++ '.' :: fs
  | whole, run => run ≠ [] ∧ ∀ c ∈ run, isDigit c

end Kind

section Patterns

variable {before : Option Char} {cs ds after : List Char} {c q : Char} {set : CharSet}

theorem contains_blankSet : Kind.blankSet.contains c = isBlank c := by
  simp [Kind.blankSet, CharSet.contains, CharClass.contains]

theorem contains_digitSet : Kind.digitSet.contains c = isDigit c := by
  simp [Kind.digitSet, CharSet.contains, CharClass.contains]

theorem contains_letterSet : Kind.letterSet.contains c = isAsciiLetter c := by
  simp [Kind.letterSet, CharSet.contains, CharClass.contains, isAsciiLetter]

theorem contains_wordSet : Kind.wordSet.contains c = isAsciiWord c := by
  simp [Kind.wordSet, CharSet.contains, CharClass.contains, isAsciiWord, isAsciiLetter, isAsciiDigit,
    Bool.or_assoc]

theorem contains_asciiDigits : (CharSet.mk [.range '0' '9'] false).contains c = isAsciiDigit c := by
  simp [CharSet.contains, CharClass.contains, isAsciiDigit]

theorem contains_unquoted : (CharSet.mk [.range q q] true).contains c = true ↔ c ≠ q := by
  have hnegated : (CharSet.mk [.range q q] true).contains c = !(CharSet.single q).contains c := by
    simp [CharSet.contains, CharSet.single]
  rw [hnegated, Bool.not_eq_true', ← Bool.not_eq_true, Pattern.contains_single]

theorem matches_oneOrMore : (Kind.oneOrMore set).Matches before cs after ↔
    cs ≠ [] ∧ ∀ c ∈ cs, set.contains c = true := by
  rw [Kind.oneOrMore, Pattern.matches_seq_many_one]
  constructor
  · rintro ⟨_, rest, rfl, ⟨c, hc, rfl⟩, hrest⟩
    exact ⟨by simp, List.forall_mem_cons.mpr ⟨hc, hrest⟩⟩
  · rintro ⟨hne, hall⟩
    obtain ⟨c, rest, rfl⟩ := List.exists_cons_of_ne_nil hne
    obtain ⟨hc, hrest⟩ := List.forall_mem_cons.mp hall
    exact ⟨[c], rest, rfl, ⟨c, hc, rfl⟩, hrest⟩

theorem matches_joinedWord : Kind.joinedWord.Matches before cs after ↔
    ∃ d ds, cs = '-' :: d :: ds ∧ isAsciiWord d ∧ ∀ c ∈ ds, isAsciiWord c := by
  simp only [Kind.joinedWord, Pattern.Matches, matches_oneOrMore, Pattern.contains_single, contains_wordSet]
  constructor
  · rintro ⟨_, rest, rfl, ⟨_, rfl, rfl⟩, hne, hall⟩
    obtain ⟨d, ds, rfl⟩ := List.exists_cons_of_ne_nil hne
    obtain ⟨hd, hds⟩ := List.forall_mem_cons.mp hall
    exact ⟨d, ds, rfl, hd, hds⟩
  · rintro ⟨d, ds, rfl, hd, hds⟩
    exact ⟨['-'], d :: ds, rfl, ⟨'-', rfl, rfl⟩, by simp, List.forall_mem_cons.mpr ⟨hd, hds⟩⟩

theorem Joined.append (h : ∀ c ∈ ds, isAsciiWord c) (hcs : Joined cs) : Joined (ds ++ cs) := by
  induction ds with
  | nil => exact hcs
  | cons d ds ih =>
    obtain ⟨hd, hds⟩ := List.forall_mem_cons.mp h
    exact .word hd (ih hds)

theorem joined_of_matches (h : (Pattern.many Kind.joinedWord).Matches before cs after) : Joined cs := by
  change Pattern.Repeated _ _ _ _ at h
  induction h with
  | done => exact .done
  | more hpiece hrest ih =>
    obtain ⟨d, ds, he, hd, hds⟩ := matches_joinedWord.mp hpiece
    obtain ⟨rfl, rfl⟩ := List.cons.inj he
    exact .join hd (ih.append hds)

/-- A joined text is a word and then the words behind hyphens. -/
theorem Joined.exists_matches (h : Joined cs) (after : List Char) :
    ∃ front rest, cs = front ++ rest ∧ (∀ c ∈ front, isAsciiWord c) ∧
      ∀ before, (Pattern.many Kind.joinedWord).Matches before rest after := by
  induction h with
  | done => exact ⟨[], [], rfl, by simp, fun before => .done before after⟩
  | word hc _ ih =>
    obtain ⟨front, rest, rfl, hfront, hrest⟩ := ih
    exact ⟨_ :: front, rest, rfl, List.forall_mem_cons.mpr ⟨hc, hfront⟩, hrest⟩
  | @join c _ hc _ ih =>
    obtain ⟨front, rest, rfl, hfront, hrest⟩ := ih
    refine ⟨[], '-' :: c :: (front ++ rest), rfl, by simp, fun before => ?_⟩
    exact Pattern.matches_many_cons.mpr ⟨c :: front, rest, rfl,
      matches_joinedWord.mpr ⟨c, front, rfl, hc, hfront⟩, hrest _⟩

theorem matches_name : Kind.name.pattern.Matches before cs after ↔ Kind.name.Fits cs := by
  rw [Kind.pattern, Pattern.Matches]
  simp only [Pattern.matches_seq_many_one, Pattern.matches_seq_one, Pattern.matches_many_one,
    contains_asciiDigits, contains_letterSet, contains_wordSet]
  constructor
  · rintro ⟨_, rest, rfl, ⟨_, word, rfl, ⟨ds, l, rfl, hds, hl⟩, hword⟩, hrest⟩
    exact ⟨ds, l, word ++ rest, hds, hl, (joined_of_matches hrest).append hword, by simp⟩
  · rintro ⟨ds, l, tail, hds, hl, htail, rfl⟩
    obtain ⟨word, rest, rfl, hword, hrest⟩ := htail.exists_matches after
    exact ⟨ds ++ [l] ++ word, rest, by simp, ⟨ds ++ [l], word, rfl, ⟨ds, l, rfl, hds, hl⟩, hword⟩, hrest _⟩

/-- **The texts that the pattern of a kind describes**, wherever they stand. -/
theorem Kind.matches_iff {k : Kind} : k.pattern.Matches before cs after ↔ k.Fits cs := by
  cases k with
  | blanks => simp only [pattern, matches_oneOrMore, contains_blankSet, Fits]
  | sign c =>
    constructor
    · rintro ⟨d, hd, rfl⟩
      rw [Pattern.contains_single.mp hd]
      rfl
    · rintro rfl
      exact ⟨c, Pattern.contains_single.mpr rfl, rfl⟩
  | quoted q =>
    simp only [pattern, Pattern.matches_seq_one, Pattern.Matches, matches_oneOrMore, contains_unquoted,
      Pattern.contains_single]
    constructor
    · rintro ⟨_, _, rfl, ⟨_, text, rfl, ⟨_, rfl, rfl⟩, hne, hall⟩, rfl⟩
      exact ⟨text, hne, fun hmem => hall _ hmem rfl, by simp⟩
    · rintro ⟨text, hne, hq, rfl⟩
      exact ⟨q :: text, q, rfl, ⟨[q], text, rfl, ⟨q, rfl, rfl⟩, hne, fun d hd he => hq (he ▸ hd)⟩, rfl⟩
  | name => exact matches_name
  | decimal =>
    rw [pattern, Pattern.Matches]
    simp only [Pattern.matches_seq_one, matches_oneOrMore, contains_digitSet, Pattern.contains_single]
    constructor
    · rintro ⟨_, fs, rfl, ⟨ds, _, rfl, hds, rfl⟩, hfs⟩
      exact ⟨ds, fs, hds, hfs, by simp⟩
    · rintro ⟨ds, fs, hds, hfs, rfl⟩
      exact ⟨ds ++ ['.'], fs, by simp, ⟨ds, '.', rfl, hds, rfl⟩, hfs⟩
  | whole => simp only [pattern, matches_oneOrMore, contains_digitSet, Fits]

end Patterns

/-! ### Where a kind starts -/

namespace Kind

/-- Whether a text of a kind may start with a character. -/
def starts : Kind → Char → Bool
  | blanks, c => isBlank c
  | sign d, c => c == d
  | quoted q, c => c == q
  | name, c => isAsciiWord c
  | decimal, c => isDigit c
  | whole, c => isDigit c

variable {k : Kind} {cs run : List Char} {c : Char}

theorem Fits.exists_starts (h : k.Fits run) : ∃ c ∈ run.head?, k.starts c = true := by
  have hhead : ∀ {p : Char → Bool}, run ≠ [] ∧ (∀ c ∈ run, p c) → ∃ c ∈ run.head?, p c := by
    rintro p ⟨hne, hall⟩
    obtain ⟨c, rest, rfl⟩ := List.exists_cons_of_ne_nil hne
    exact ⟨c, rfl, hall c (by simp)⟩
  cases k with
  | blanks => exact hhead h
  | sign c =>
    obtain rfl : run = [c] := h
    exact ⟨c, rfl, beq_self_eq_true c⟩
  | quoted q =>
    obtain ⟨text, -, -, rfl⟩ := h
    exact ⟨q, rfl, beq_self_eq_true q⟩
  | name =>
    obtain ⟨ds, l, tail, hds, hl, -, rfl⟩ := h
    cases ds with
    | nil => exact ⟨l, rfl, by rw [starts, isAsciiWord, hl, Bool.true_or]⟩
    | cons d ds => exact ⟨d, rfl, by rw [starts, isAsciiWord, hds d (by simp), Bool.or_true]⟩
  | decimal =>
    obtain ⟨ds, fs, ⟨hne, hall⟩, -, rfl⟩ := h
    obtain ⟨d, rest, rfl⟩ := List.exists_cons_of_ne_nil hne
    exact ⟨d, rfl, hall d (by simp)⟩
  | whole => exact hhead h

theorem Fits.starts_of_isPrefix (h : k.Fits run) (hp : run <+: c :: cs) : k.starts c = true := by
  obtain ⟨d, hd, hs⟩ := h.exists_starts
  obtain ⟨rest, he⟩ := hp
  have hhead := congrArg List.head? he
  rw [List.head?_append, Option.mem_def.mp hd] at hhead
  obtain rfl : d = c := Option.some.inj hhead
  exact hs

end Kind

/-! ### What the reader takes -/

variable {cs ds run rest tail : List Char} {c l : Char} {k : Kind}

theorem spanJoined_joined (h : Joined tail) (rest : List Char) :
    spanJoined (· == '-') isAsciiWord (tail ++ rest) =
      (tail ++ (spanJoined (· == '-') isAsciiWord rest).1, (spanJoined (· == '-') isAsciiWord rest).2) := by
  induction h with
  | done => rfl
  | word hc _ ih => rw [List.cons_append, spanJoined_word hc, ih, List.cons_append]
  | join hc _ ih =>
    rw [List.cons_append, List.cons_append, spanJoined_join (by decide) (by decide) hc, ih,
      List.cons_append, List.cons_append]

theorem joined_spanJoined : ∀ cs : List Char, Joined (spanJoined (· == '-') isAsciiWord cs).1
  | [] => .done
  | [c] => by
    by_cases h : isAsciiWord c
    · rw [spanJoined_word h]
      exact .word h .done
    · simpa [spanJoined, h] using Joined.done
  | c :: d :: rest => by
    by_cases h : isAsciiWord c
    · rw [spanJoined_word h]
      exact .word h (joined_spanJoined (d :: rest))
    · by_cases hj : (c == '-') && isAsciiWord d
      · obtain ⟨hs, hd⟩ := Bool.and_eq_true_iff.mp hj
        obtain rfl := beq_iff_eq.mp hs
        rw [spanJoined_join (by decide) (by decide) hd]
        exact .join hd (joined_spanJoined rest)
      · simpa [spanJoined, h, hj] using Joined.done

/-- A name in front is taken, and perhaps more. -/
theorem Kind.Fits.takeName? (h : Kind.name.Fits run) (rest : List Char) :
    ∃ more rest', Lexer.takeName? (run ++ rest) = some (run ++ more, rest') := by
  obtain ⟨ds, l, tail, hds, hl, htail, rfl⟩ := h
  have hstop : ¬ isAsciiDigit l = true := by simp [isAsciiDigit_letter hl]
  refine ⟨(spanJoined (· == '-') isAsciiWord rest).1, (spanJoined (· == '-') isAsciiWord rest).2, ?_⟩
  rw [List.append_assoc, List.cons_append, Lexer.takeName?, List.dropWhile_append_of_pos hds,
    List.takeWhile_append_of_pos hds, List.dropWhile_cons_of_neg hstop, List.takeWhile_cons_of_neg hstop]
  simp only [hl, if_true, spanJoined_joined htail, List.append_nil, List.append_assoc, List.cons_append]

/-- A name that is taken is one. -/
theorem fits_of_takeName? (h : takeName? cs = some (run, rest)) : Kind.name.Fits run := by
  unfold takeName? at h
  split at h
  · cases h
  split at h
  · rename_i l after hd hl
    obtain ⟨rfl, -⟩ := Prod.mk.inj (Option.some.inj h)
    exact ⟨_, l, _, fun c hc => List.mem_takeWhile_imp hc, hl, joined_spanJoined after, rfl⟩
  · cases h

/-- A run of digits goes no further than the first character that is none. -/
theorem length_le_of_append_eq {a : Char} (hds : ∀ c ∈ ds, isDigit c) (ha : isDigit a = false)
    (h : ds ++ rest = run ++ a :: tail) : ds.length ≤ run.length := by
  rcases List.append_eq_append_iff.mp h with ⟨more, rfl, -⟩ | ⟨more, rfl, hmore⟩
  · rw [List.length_append]
    exact Nat.le_add_right _ _
  · cases more with
    | nil => rw [List.append_nil]
    | cons b more =>
      obtain ⟨rfl, -⟩ := List.cons.inj hmore
      have hdigit := hds a (by simp)
      rw [ha] at hdigit
      cases hdigit

/-- The digits in front of a name all belong to it. -/
theorem length_le_of_takeName? (hds : ∀ c ∈ ds, isDigit c)
    (h : takeName? (ds ++ rest) = some (run, tail)) : ds.length ≤ run.length := by
  obtain ⟨front, l, more, -, hl, -, rfl⟩ := fits_of_takeName? h
  have happend := (takeName?_append h).1
  rw [List.append_assoc, List.cons_append] at happend
  have := length_le_of_append_eq hds (isDigit_letter hl) happend.symm
  rw [List.length_append]
  omega

/-- A decimal is no beginning of a name, nor is a name one of a decimal. -/
theorem takeName?_decimal (hds : ∀ c ∈ ds, isDigit c) : takeName? (ds ++ '.' :: rest) = none := by
  by_contra hn
  obtain ⟨⟨run, after⟩, hn⟩ := Option.ne_none_iff_exists'.mp hn
  obtain ⟨front, l, more, hfront, hl, he⟩ := takeName?_letter hn
  have hdigit : ∀ c ∈ front, isDigit c := fun c hc => isDigit_ascii (hfront c hc)
  have hle := length_le_of_append_eq hds (isDigit_letter hl) he
  have hge := length_le_of_append_eq hdigit (by decide : isDigit '.' = false) he.symm
  obtain ⟨-, he⟩ := List.append_inj he (Nat.le_antisymm hle hge)
  obtain ⟨rfl, -⟩ := List.cons.inj he
  exact absurd hl (by decide)

/-- A decimal in front is taken, and perhaps more. -/
theorem Kind.Fits.takeNumber? (h : Kind.decimal.Fits run) (rest : List Char) :
    ∃ more rest', Lexer.takeNumber? (run ++ rest) = some (run ++ more, rest') := by
  obtain ⟨ds, fs, ⟨hne, hds⟩, ⟨hne', hfs⟩, rfl⟩ := h
  obtain ⟨d, ds, rfl⟩ := List.exists_cons_of_ne_nil hne
  obtain ⟨f, fs, rfl⟩ := List.exists_cons_of_ne_nil hne'
  have hmore : ∀ c ∈ f :: (fs ++ rest.takeWhile isDigit), isDigit c := by
    intro c hc
    rcases List.mem_append.mp (List.cons_append ▸ hc : c ∈ f :: fs ++ rest.takeWhile isDigit) with hc | hc
    · exact hfs c hc
    · exact List.mem_takeWhile_imp hc
  refine ⟨rest.takeWhile isDigit, rest.dropWhile isDigit, ?_⟩
  have := takeNumber?_decimal hds hmore (noDigit_dropWhile rest)
  simpa using this

/-- All digits in front of a number belong to it. -/
theorem isPrefix_of_takeNumber? (h : Lexer.takeNumber? cs = some (run, rest)) :
    cs.takeWhile isDigit <+: run := by
  unfold Lexer.takeNumber? at h
  split at h
  · cases h
  · rename_i ht _
    split at h
    · obtain ⟨rfl, -⟩ := Prod.mk.inj (Option.some.inj h)
      exact ht ▸ List.prefix_refl _
    · obtain ⟨rfl, -⟩ := Prod.mk.inj (Option.some.inj h)
      rw [ht]
      exact List.prefix_append _ _
  · rename_i ht _
    obtain ⟨rfl, -⟩ := Prod.mk.inj (Option.some.inj h)
    exact ht ▸ List.prefix_refl _

/-! ### The first pattern that matches -/

theorem isSign_of_mem_all (h : Kind.sign c ∈ Kind.all) : Expression.isSign c := by
  simpa [Kind.all, Kind.symbols, Expression.isSign_iff] using h

theorem quote_of_mem_all (h : Kind.quoted c ∈ Kind.all) : c = '"' ∨ c = '\'' := by
  simpa [Kind.all, Kind.symbols] using h

/-- **Where a pattern describes the front of a text** the reader takes at least as much, blanks apart. -/
theorem Kind.Fits.exists_scan? (h : k.Fits run) (hk : k ∈ Kind.all) (hne : k ≠ .blanks)
    (rest : List Char) : ∃ m, scan? (run ++ rest) = some m ∧ run.length ≤ m.run.length := by
  cases k with
  | blanks => exact absurd rfl hne
  | sign c =>
    obtain rfl : run = [c] := h
    rcases hop : operator? c with _ | l
    · have hsign := isSign_of_mem_all hk
      rw [Expression.isSign_eq_false hop] at hsign
      cases hsign
    · exact ⟨_, scan?_operator hop rest, le_rfl⟩
  | quoted q =>
    obtain ⟨text, htext, hq, rfl⟩ := h
    have := scan?_of_takeQuoted? (quote_of_mem_all hk) (takeQuoted?_enclosed htext hq rest)
    rw [List.cons_append, List.append_assoc]
    exact ⟨_, this, le_rfl⟩
  | name =>
    obtain ⟨more, rest', hname⟩ := h.takeName? rest
    exact ⟨_, scan?_of_takeName? hname, by simp⟩
  | decimal =>
    obtain ⟨more, rest', hnumber⟩ := h.takeNumber? rest
    obtain ⟨ds, fs, ⟨hds, hdigits⟩, -, rfl⟩ := h
    obtain ⟨d, ds, rfl⟩ := List.exists_cons_of_ne_nil hds
    have hnone : Lexer.takeName? (d :: ds ++ '.' :: fs ++ rest) = none := by
      rw [List.append_assoc]
      exact takeName?_decimal hdigits
    rcases scan?_of_digit (ds ++ '.' :: fs ++ rest) (hdigits d (by simp)) with
      ⟨run, tail, hname, -⟩ | ⟨-, run, tail, hnumber', hs⟩
    · cases hname.symm.trans hnone
    · obtain ⟨rfl, rfl⟩ := Prod.mk.inj (Option.some.inj (hnumber'.symm.trans hnumber))
      exact ⟨_, hs, by simp⟩
  | whole =>
    obtain ⟨hds, hdigits⟩ := h
    obtain ⟨d, ds, rfl⟩ := List.exists_cons_of_ne_nil hds
    rcases scan?_of_digit (ds ++ rest) (hdigits d (by simp)) with
      ⟨run, tail, hname, hs⟩ | ⟨-, run, tail, hnumber, hs⟩
    · exact ⟨_, hs, length_le_of_takeName? hdigits hname⟩
    · refine ⟨_, hs, ?_⟩
      have hle := (isPrefix_of_takeNumber? hnumber).length_le
      rw [← List.cons_append, List.takeWhile_append_of_pos hdigits, List.length_append] at hle
      exact (Nat.le_add_right _ _).trans hle

/-- What a kind describes in front of a text is no longer than what the reader takes there. -/
theorem length_le_of_fits {m : Match} (hs : scan? cs = some m) (hk : k ∈ Kind.all) (hp : run <+: cs)
    (h : k.Fits run) : run.length ≤ m.run.length := by
  by_cases hne : k = .blanks
  · subst hne
    cases cs with
    | nil => cases hs
    | cons c cs =>
      have hblank := h.starts_of_isPrefix hp
      rw [Kind.starts, isBlank_of_scan? hs] at hblank
      cases hblank
  · obtain ⟨rest, rfl⟩ := hp
    obtain ⟨m', hs', hle⟩ := h.exists_scan? hk hne rest
    obtain rfl := Option.some.inj (hs.symm.trans hs')
    exact hle

/-- **Where the reader takes nothing** and no blank stands, no pattern matches. -/
theorem not_fits_of_scan?_eq_none (hb : isBlank c = false) (hs : scan? (c :: cs) = none) (hk : k ∈ Kind.all)
    (hp : run <+: c :: cs) : ¬ k.Fits run := by
  intro h
  by_cases hne : k = .blanks
  · subst hne
    have hblank := h.starts_of_isPrefix hp
    rw [Kind.starts, hb] at hblank
    cases hblank
  · obtain ⟨rest, he⟩ := hp
    obtain ⟨m, hm, -⟩ := h.exists_scan? hk hne rest
    rw [he, hs] at hm
    cases hm

/-- The kind is the first one that describes a beginning of the text, and it describes this one. -/
structure IsFirst (cs : List Char) (k : Kind) (run : List Char) : Prop where
  fits : k.Fits run
  others : ∃ earlier later, Kind.all = earlier ++ k :: later ∧
    ∀ k' ∈ earlier, ∀ run', run' <+: cs → ¬ k'.Fits run'

/-- A kind is the first where no kind before it starts. -/
theorem isFirst_of_starts (h : k.Fits run) (hfind : Kind.all.find? (·.starts c) = some k) :
    IsFirst (c :: cs) k run := by
  obtain ⟨-, earlier, later, he, hno⟩ := List.find?_eq_some_iff_append.mp hfind
  refine ⟨h, earlier, later, he, fun k' hk' run' hp hfits => ?_⟩
  have := hno k' hk'
  rw [hfits.starts_of_isPrefix hp] at this
  cases this

theorem find?_starts_sign (h : Expression.isSign c) : Kind.all.find? (·.starts c) = some (.sign c) := by
  rcases Expression.isSign_iff.mp h with rfl | rfl | rfl | rfl
  all_goals decide

theorem find?_starts_quoted (h : c = '"' ∨ c = '\'') : Kind.all.find? (·.starts c) = some (.quoted c) := by
  rcases h with rfl | rfl
  · decide
  · decide

/-- No sign, quote or blank is a letter or a digit. -/
theorem starts_symbols (hk : k ∈ Kind.symbols) (h : k.starts c = true) :
    isAsciiWord c = false ∧ isDigit c = false := by
  simp only [Kind.symbols, List.mem_cons, List.not_mem_nil, or_false] at hk
  rcases hk with rfl | rfl | rfl | rfl | rfl | rfl | rfl
  · exact ⟨isAsciiWord_blank h, isDigit_blank h⟩
  all_goals
    obtain rfl := beq_iff_eq.mp h
    decide

theorem not_fits_symbols (hc : isAsciiWord c ∨ isDigit c) (hk : k ∈ Kind.symbols) (hp : run <+: c :: cs) :
    ¬ k.Fits run := by
  intro h
  obtain ⟨hword, hdigit⟩ := starts_symbols hk (h.starts_of_isPrefix hp)
  rw [hword, hdigit] at hc
  simp at hc

theorem isFirst_name (h : takeName? (c :: cs) = some (run, rest)) : IsFirst (c :: cs) .name run := by
  obtain ⟨d, hd, hword⟩ := startsWord_of_takeName? h
  obtain rfl : c = d := Option.some.inj hd
  exact ⟨fits_of_takeName? h, Kind.symbols, [.decimal, .whole], rfl, fun k hk run' hp =>
    not_fits_symbols (Or.inl hword) hk hp⟩

/-- A number that is taken is a decimal if it can be one, and it is no name. -/
theorem exists_isFirst_number (hname : takeName? (c :: cs) = none)
    (h : takeNumber? (c :: cs) = some (run, rest)) :
    ∃ k, IsFirst (c :: cs) k run ∧ k.lexeme? run = (literal? run).map .number := by
  have hno : ∀ run', run' <+: c :: cs → ¬ Kind.name.Fits run' := by
    rintro run' ⟨more, he⟩ hfits
    obtain ⟨_, _, hsome⟩ := hfits.takeName? more
    rw [he, hname] at hsome
    cases hsome
  obtain ⟨d, ds, hds, -, hrun⟩ := takeNumber?_cases h
  have hc : isDigit c := by
    obtain rfl : c = d := by
      rcases hrun with ⟨-, he, -⟩ | ⟨f, fs, -, -, he⟩
      · exact (List.cons.inj he).1
      · exact (List.cons.inj he).1
    exact hds c (by simp)
  rcases hrun with ⟨rfl, -, -⟩ | ⟨f, fs, hfs, rfl, -⟩
  · refine ⟨.whole, ⟨⟨by simp, hds⟩, Kind.symbols ++ [.name, .decimal], [], rfl, ?_⟩, rfl⟩
    intro k hk run' hp hfits
    rcases List.mem_append.mp hk with hk | hk
    · exact not_fits_symbols (Or.inr hc) hk hp hfits
    rcases List.mem_cons.mp hk with rfl | hk
    · exact hno run' hp hfits
    · -- a decimal would have been taken as one
      obtain rfl := List.mem_singleton.mp hk
      obtain ⟨more, he⟩ := hp
      obtain ⟨_, _, hsome⟩ := hfits.takeNumber? more
      rw [he, h] at hsome
      obtain ⟨hsome, -⟩ := Prod.mk.inj (Option.some.inj hsome)
      obtain ⟨es, gs, -, -, rfl⟩ := hfits
      exact absurd (hds '.' (by simp [hsome])) (by decide)
  · refine ⟨.decimal, ⟨⟨d :: ds, f :: fs, ⟨by simp, hds⟩, ⟨by simp, hfs⟩, rfl⟩,
      Kind.symbols ++ [.name], [.whole], rfl, ?_⟩, rfl⟩
    intro k hk run' hp hfits
    rcases List.mem_append.mp hk with hk | hk
    · exact not_fits_symbols (Or.inr hc) hk hp hfits
    · obtain rfl := List.mem_singleton.mp hk
      exact hno run' hp hfits

/-- **What the reader takes** is what the first pattern that matches describes, and the pattern says what it
means. -/
theorem exists_isFirst_of_scan? {m : Match} (hs : scan? (c :: cs) = some m) :
    ∃ k, IsFirst (c :: cs) k m.run ∧ k.lexeme? m.run = m.lexeme? := by
  rcases scan?_cases hs with ⟨l, hop, rfl⟩ | ⟨-, hq, run, rest, ht, rfl⟩ | ⟨-, -, run, rest, hn, rfl⟩ |
    ⟨-, -, hname, run, rest, hn, rfl⟩
  · have hsign := (Expression.operator?_eq_some hop).1
    exact ⟨.sign c, isFirst_of_starts rfl (find?_starts_sign hsign), hop⟩
  · obtain ⟨text, hne, hmem, rfl⟩ := takeQuoted?_eq_some ht
    exact ⟨.quoted c, isFirst_of_starts ⟨text, hne, hmem, rfl⟩ (find?_starts_quoted hq), rfl⟩
  · exact ⟨.name, isFirst_name hn, rfl⟩
  · exact exists_isFirst_number hname hn

end RowPipeline.Lexer
