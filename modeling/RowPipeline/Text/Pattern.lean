import RowPipeline.Text.Blank
import RowPipeline.Text.Case
import RowPipeline.Text.DecimalDigit
import RowPipeline.Text.WordTable

/-!
# Text patterns

A pattern describes a set of texts: single characters of a class, anchors, and their sequences,
alternatives and repetitions. An anchor looks at the place it stands at, that is at the character before
it and at the text after it.

`matchesAt` decides whether some beginning of a text matches, by derivatives: `derive` is what is left
of a pattern after a character. `search` looks for a match at any place. Main statement: a text has a
match iff one of its places has one (`search_eq_true_iff`).
-/

namespace RowPipeline.Text

/-! ### Classes of characters -/

/-- Whether a character belongs to a word: a letter, a digit or another number of any script, or the
underscore. -/
def isWordChar (c : Char) : Bool := c == '_' || inRanges WordTable.alphanumeric c.toNat

/-- A class of characters. -/
inductive CharClass where
  | range (first last : Char)
  | digit (inside : Bool)
  | blank (inside : Bool)
  | word (inside : Bool)
  deriving DecidableEq

/-- Whether a character is in a class; with `inside` false the class is the complement. -/
def CharClass.contains : CharClass → Char → Bool
  | range first last, c => first ≤ c && c ≤ last
  | digit inside, c => isDigit c == inside
  | blank inside, c => isBlank c == inside
  | word inside, c => isWordChar c == inside

/-- A union of classes or the complement of one. -/
structure CharSet where
  classes : List CharClass
  negated : Bool := false
  deriving DecidableEq

namespace CharSet

/-- Whether a character is in a set. -/
def contains (s : CharSet) (c : Char) : Bool := s.classes.any (·.contains c) != s.negated

/-- The set of one character. -/
def single (c : Char) : CharSet := ⟨[.range c c], false⟩

/-- Every character but the newline. -/
def visible : CharSet := ⟨[.range '\n' '\n'], true⟩

end CharSet

/-! ### Anchors -/

/-- A condition on a place in a text. -/
inductive Anchor where
  | start
  | finish
  | lastLine
  | wordEdge (inside : Bool)
  deriving DecidableEq

/-- Whether a condition holds between the character `before` and the text `after`. The last line may be
followed by one newline. -/
def Anchor.holds (before : Option Char) (after : List Char) : Anchor → Bool
  | start => before.isNone
  | finish => after.isEmpty
  | lastLine => after.isEmpty || after == ['\n']
  | wordEdge inside => (before.any isWordChar != after.head?.any isWordChar) == inside

/-! ### Patterns -/

/-- A set of texts. -/
inductive Pattern where
  | nothing
  | empty
  | one (set : CharSet)
  | anchor (condition : Anchor)
  | seq (first second : Pattern)
  | alt (first second : Pattern)
  | many (inner : Pattern)
  deriving DecidableEq

namespace Pattern

/-- One pattern after another, simplified. -/
def andThen : Pattern → Pattern → Pattern
  | nothing, _ => nothing
  | empty, q => q
  | _, nothing => nothing
  | p, empty => p
  | p, q => seq p q

/-- One of two patterns, simplified. -/
def orElse : Pattern → Pattern → Pattern
  | nothing, q => q
  | p, nothing => p
  | p, q => if p = q then p else alt p q

/-- Whether the empty text matches at a place. -/
def nullable (before : Option Char) (after : List Char) : Pattern → Bool
  | nothing => false
  | empty => true
  | one _ => false
  | anchor condition => condition.holds before after
  | seq p q => p.nullable before after && q.nullable before after
  | alt p q => p.nullable before after || q.nullable before after
  | many _ => true

/-- What is left of a pattern after the character `c`, which stands between `before` and `after`. -/
def derive (before : Option Char) (c : Char) (after : List Char) : Pattern → Pattern
  | nothing => nothing
  | empty => nothing
  | one set => if set.contains c then empty else nothing
  | anchor _ => nothing
  | seq p q =>
    let first := (p.derive before c after).andThen q
    if p.nullable before (c :: after) then first.orElse (q.derive before c after) else first
  | alt p q => (p.derive before c after).orElse (q.derive before c after)
  | many p => (p.derive before c after).andThen (many p)

/-- Whether some beginning of a text matches. -/
def matchesAt (p : Pattern) (before : Option Char) : List Char → Bool
  | [] => p.nullable before []
  | c :: after => p.nullable before (c :: after) || matchesAt (p.derive before c after) (some c) after

/-- Whether a match starts at one of the places of a text. -/
def searchFrom (p : Pattern) (before : Option Char) : List Char → Bool
  | [] => p.matchesAt before []
  | c :: after => p.matchesAt before (c :: after) || searchFrom p (some c) after

/-- Whether a text has a match. -/
def search (p : Pattern) (s : String) : Bool := p.searchFrom none s.toList

/-- The last character of a text, or another one in front of it. -/
def lastOr (before : Option Char) (cs : List Char) : Option Char := cs.getLast?.or before

theorem searchFrom_eq_true_iff {p : Pattern} {before : Option Char} {cs : List Char} :
    p.searchFrom before cs = true ↔
      ∃ front rest, cs = front ++ rest ∧ p.matchesAt (lastOr before front) rest = true := by
  induction cs generalizing before with
  | nil =>
    constructor
    · intro h; exact ⟨[], [], rfl, h⟩
    · rintro ⟨front, rest, h, hm⟩
      obtain ⟨rfl, rfl⟩ := List.append_eq_nil_iff.1 h.symm
      exact hm
  | cons c cs ih =>
    simp only [searchFrom, Bool.or_eq_true, ih]
    constructor
    · rintro (h | ⟨front, rest, rfl, hm⟩)
      · exact ⟨[], c :: cs, rfl, h⟩
      · refine ⟨c :: front, rest, rfl, ?_⟩
        cases front with
        | nil => exact hm
        | cons d front => simpa [lastOr, List.getLast?_cons_cons, List.getLast?_cons] using hm
    · rintro ⟨front, rest, h, hm⟩
      cases front with
      | nil => left; subst h; exact hm
      | cons d front =>
        obtain ⟨rfl, rfl⟩ := List.cons.inj h
        refine .inr ⟨front, rest, rfl, ?_⟩
        cases front with
        | nil => exact hm
        | cons e front => simpa [lastOr, List.getLast?_cons_cons, List.getLast?_cons] using hm

/-- A text has a match iff one of its places has one. -/
theorem search_eq_true_iff {p : Pattern} {s : String} :
    p.search s = true ↔
      ∃ front rest, s.toList = front ++ rest ∧ p.matchesAt front.getLast? rest = true := by
  simp [search, searchFrom_eq_true_iff, lastOr]

end Pattern

end RowPipeline.Text
