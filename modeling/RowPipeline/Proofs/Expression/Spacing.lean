import RowPipeline.Proofs.Expression.Calls
import RowPipeline.Proofs.Expression.Grouping

/-!
# Spacing

Where the tokens of a text are written with blanks between them, the same tokens are read
(`reads_spaced`): a token ends in front of a blank, and so it is read there as it was read in front of whatever
followed it. The positions change. A tree has none, and an error of the parser only names the position of its
token (`Failure.unplaced`), so both texts have the same tree or the same error (`spaced_alike`).
-/

namespace RowPipeline

open Text Lexer

/-! ### Texts in pieces -/

/-- The pieces of a text, with blanks in front and behind each piece. -/
def spaced (lead : List Char) (pieces : List (List Char × List Char)) : List Char :=
  lead ++ pieces.flatMap fun piece => piece.1 ++ piece.2

section Spaced

variable {cs lead : List Char} {pieces : List (List Char × List Char)} {c : Cursor} {ts : List Token}
  {finish : Token}

/-- **The tokens written with blanks between them** are read as the same lexemes. -/
theorem reads_spaced (h : Within cs c) (ht : c.tokens = .ok (ts ++ [finish]))
    (hp : pieces.map Prod.fst = (c.spans ts.length).map (Span.text cs))
    (hblank : ∀ piece ∈ pieces, ∀ b ∈ piece.2, isBlank b)
    (hgap : ∀ piece ∈ pieces.dropLast, piece.2 ≠ []) :
    Reads [] (pieces.flatMap fun piece => piece.1 ++ piece.2) (ts.map Token.lexeme) := by
  induction ts generalizing c pieces with
  | nil =>
    obtain rfl : pieces = [] := List.map_eq_nil_iff.mp hp
    exact .blanks (by simp)
  | cons t ts ih =>
    obtain ⟨run, rest, hd, hs, -, hrest⟩ := Cursor.tokens_cons ht (by simp)
    obtain ⟨a, run, rfl⟩ := List.exists_cons_of_ne_nil (scan?_append hs).2
    have htext : c.span.text cs = a :: run := h.text_span hd hs
    have hnext := Cursor.next_of_lexeme hd hs rfl
    rw [List.length_cons, Cursor.spans_succ, List.map_cons, htext, hnext] at hp
    obtain ⟨⟨_, gap⟩, pieces, rfl, rfl, hmap⟩ := List.map_eq_cons_iff.mp hp
    obtain ⟨hgapblank, hblank⟩ := List.forall_mem_cons.mp hblank
    have hmore : Reads [] (pieces.flatMap fun piece => piece.1 ++ piece.2) (ts.map Token.lexeme) := by
      refine ih (h.skipBlanks.advance hd) hrest hmap hblank fun piece hpiece => ?_
      cases pieces with
      | nil => cases hpiece
      | cons p pieces => exact hgap piece (by simp [hpiece])
    have hends : Ends t.lexeme (gap ++ (pieces.flatMap fun piece => piece.1 ++ piece.2) ++ []) := by
      cases gap with
      | cons b gap => exact Reads.ends_of_blank (hgapblank b (by simp))
      | nil =>
        -- only behind the last piece no blank may stand
        cases pieces with
        | nil => exact Reads.ends_nil
        | cons p pieces => exact absurd rfl (hgap (a :: run, []) (by simp))
    rw [List.flatMap_cons, List.append_assoc]
    exact .cons (scan?_replace hs rfl hends) (hmore.blanks_append hgapblank)

end Spaced

/-! ### Errors without their places -/

/-- A token without its place. -/
def Token.unplaced (t : Token) : Token := ⟨t.lexeme, 0⟩

/-- An error of the parser, its token without the place. -/
def ParseError.unplaced : ParseError → ParseError
  | empty => empty
  | operandExpected t => operandExpected t.unplaced
  | unexpected t => unexpected t.unplaced

/-- A failure, an error of the parser without its place. -/
def Failure.unplaced : Failure → Failure
  | parse e => parse e.unplaced
  | failure => failure

theorem map_unplaced {all all' : List Token} (h : all'.map Token.lexeme = all.map Token.lexeme) :
    all'.map Token.unplaced = all.map Token.unplaced := by
  have := congrArg (List.map fun l => Token.mk l 0) h
  rwa [List.map_map, List.map_map] at this

namespace Tree

variable {ts : List Token} {t : Token}

theorem ofOperand_unplaced (t : Token) :
    ofOperand t.unplaced = (ofOperand t).mapError ParseError.unplaced := by
  obtain ⟨l, p⟩ := t
  cases l <;> rfl

/-- Reading does not look at the places of tokens. -/
theorem readOn_unplaced : ∀ (pending : Pending) (product : Tree) (ts : List Token),
    readOn pending product (ts.map Token.unplaced) =
      (readOn pending product ts).mapError ParseError.unplaced
  | _, _, [] => rfl
  | _, _, [t] => by
    by_cases hl : t.lexeme = .finish
    · simp [readOn, Token.unplaced, hl, Except.mapError]
    · simp [readOn, Token.unplaced, hl, Except.mapError, ParseError.unplaced]
  | pending, product, t :: operand :: rest => by
    rw [List.map_cons, List.map_cons]
    rcases hop : t.lexeme.isOperator with _ | _
    · rw [readOn_no_operator hop, readOn_no_operator (t := t.unplaced) hop]
      rfl
    have hunplaced := ofOperand_unplaced operand
    rcases hright : ofOperand operand with e | right
    · rw [hright] at hunplaced
      rw [readOn_no_operand hop hright, readOn_no_operand (t := t.unplaced) hop hunplaced]
      rfl
    · rw [hright] at hunplaced
      rcases hp : t.lexeme.productOperator? with _ | op
      · rcases hs : t.lexeme.sumOperator? with _ | op
        · rw [Lexeme.isOperator_eq_false hp hs] at hop
          cases hop
        · rw [readOn_sum hp hs, readFrom_cons hright, readOn_sum (t := t.unplaced) hp hs,
            readFrom_cons hunplaced, readOn_unplaced _ right rest]
      · rw [readOn_product hp hright, readOn_product (t := t.unplaced) hp hunplaced,
          readOn_unplaced pending _ rest]

theorem ofTokens_unplaced (ts : List Token) :
    ofTokens (ts.map Token.unplaced) = (ofTokens ts).mapError ParseError.unplaced := by
  cases ts with
  | nil => rfl
  | cons t ts =>
    by_cases hl : t.lexeme = .finish
    · simp [ofTokens, Token.unplaced, hl, Except.mapError, ParseError.unplaced]
    have hunplaced := ofOperand_unplaced t
    rw [List.map_cons, ofTokens_cons hl, ofTokens_cons (t := t.unplaced) hl]
    rcases hfirst : ofOperand t with e | first
    · rw [hfirst] at hunplaced
      rw [readFrom, readFrom, hfirst, hunplaced]
      rfl
    · rw [hfirst] at hunplaced
      rw [readFrom_cons hfirst, readFrom_cons hunplaced, readOn_unplaced]

/-- **Texts with the same lexemes** have the same tree, or the same error but for its place. -/
theorem parse_unplaced {cs cs' : List Char} {all all' : List Token} (h : tokenize cs = .ok all)
    (h' : tokenize cs' = .ok all') (he : all'.map Token.lexeme = all.map Token.lexeme) :
    (parse cs').mapError Failure.unplaced = (parse cs).mapError Failure.unplaced := by
  have hparse : ∀ {cs : List Char} {all : List Token}, tokenize cs = .ok all →
      (parse cs).mapError Failure.unplaced = (ofTokens (all.map Token.unplaced)).mapError .parse := by
    intro cs all h
    rw [parse_of_tokenize h, ofTokens_unplaced]
    cases ofTokens all <;> rfl
  rw [hparse h, hparse h', map_unplaced he]

end Tree

/-! ### Spaced texts -/

/-- **Spacing out the tokens of a text changes nothing.** If the texts of its tokens, without the end mark, are
written one after the other with blanks in front, behind and, at least one, in between, then the same lexemes are
read, and the tree is the same or the same error is found, but for its place. -/
theorem spaced_alike {cs lead : List Char} {pieces : List (List Char × List Char)} {ts : List Token}
    {finish : Token} (ht : tokenize cs = .ok (ts ++ [finish]))
    (hp : pieces.map Prod.fst = ((Cursor.start cs).spans ts.length).map (Span.text cs))
    (hlead : ∀ b ∈ lead, isBlank b) (hblank : ∀ piece ∈ pieces, ∀ b ∈ piece.2, isBlank b)
    (hgap : ∀ piece ∈ pieces.dropLast, piece.2 ≠ []) :
    (∃ all, tokenize (spaced lead pieces) = .ok all ∧
      all.map Token.lexeme = (ts ++ [finish]).map Token.lexeme) ∧
    (Tree.parse (spaced lead pieces)).mapError Failure.unplaced =
      (Tree.parse cs).mapError Failure.unplaced := by
  have hreads := (reads_spaced (within_start cs) ht hp hblank hgap).blanks_append hlead
  obtain ⟨ts', q, hnew, hlexemes⟩ := hreads.tokens 0
  have hfinish : finish.lexeme = .finish := by
    obtain ⟨_, p, he, -⟩ := Cursor.tokens_shape _ ht
    obtain ⟨-, hfinish⟩ := List.append_inj' he rfl
    rw [(List.cons.inj hfinish).1]
  have hall : (ts' ++ [Token.mk .finish q]).map Token.lexeme = (ts ++ [finish]).map Token.lexeme := by
    rw [List.map_append, List.map_append, hlexemes, List.map_singleton, List.map_singleton, hfinish]
  exact ⟨⟨_, hnew, hall⟩, Tree.parse_unplaced ht hnew hall⟩

/-- Two names with a hyphen inside and a sign between them, and then two signs where one is out of turn. -/
theorem spaced_alike_hyphens :
    ((∃ all, tokenize (spaced ['\t'] [("a-1".toList, [' ']), (['-'], ['\n', ' ']), ("2b-c".toList, [])]) =
          .ok all ∧ all.map Token.lexeme = [.name "a-1", .minus, .name "2b-c", .finish]) ∧
      (Tree.parse (spaced ['\t'] [("a-1".toList, [' ']), (['-'], ['\n', ' ']), ("2b-c".toList, [])])).mapError
          Failure.unplaced = (Tree.parse "a-1 -2b-c".toList).mapError Failure.unplaced) ∧
    ((∃ all, tokenize (spaced [] [(['1'], [' ']), (['+'], [' ']), (['*'], [' '])]) = .ok all ∧
        all.map Token.lexeme = [.number (.int 1), .plus, .times, .finish]) ∧
      (Tree.parse (spaced [] [(['1'], [' ']), (['+'], [' ']), (['*'], [' '])])).mapError Failure.unplaced =
        (Tree.parse "1+*".toList).mapError Failure.unplaced) := by
  have h : tokenize "a-1 -2b-c".toList =
      .ok ([⟨.name "a-1", 0⟩, ⟨.minus, 4⟩, ⟨.name "2b-c", 5⟩] ++ [⟨.finish, 9⟩]) := by cbv
  have h' : tokenize "1+*".toList =
      .ok ([⟨.number (.int 1), 0⟩, ⟨.plus, 1⟩, ⟨.times, 2⟩] ++ [⟨.finish, 3⟩]) := by cbv
  exact ⟨spaced_alike h (by decide +kernel) (by simp [isBlank]) (by simp [isBlank]) (by simp),
    spaced_alike h' (by decide +kernel) (by simp [isBlank]) (by simp [isBlank]) (by simp)⟩

end RowPipeline
