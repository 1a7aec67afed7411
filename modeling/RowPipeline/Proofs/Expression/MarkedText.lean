import RowPipeline.Proofs.Expression.Renaming
import RowPipeline.Proofs.Expression.Spelling

/-!
# Marked texts and their names

A marked text is blanks, the marker and the text that is read (`hasMarker_iff`); its body has the tree of
that text (`parse_body_iff`). Around any token of the tree, and so around any of its names, the text is
known (`exists_token`, `text_around`): a name stands in it as it is, with at most a quote before it, and what
is behind does not go on with it. So a name is never the text itself (`ne_of_mentions`).
-/

namespace RowPipeline

open Text

namespace Expression

variable {s : String} {bs raw : List Char} {tree : Tree}

/-! ### The text behind the marker -/

/-- The characters behind the marker, blanks included. -/
def behindMarker (s : String) : List Char := (s.toList.dropWhile (· != marker)).drop 1

theorem not_marker_of_isBlank {c : Char} (h : isBlank c) : (c != marker) = true := by
  rw [bne_iff_ne]
  rintro rfl
  exact absurd h (by decide)

theorem behindMarker_of_blanks (hb : ∀ c ∈ bs, isBlank c) (hs : s.toList = bs ++ marker :: raw) :
    behindMarker s = raw := by
  rw [behindMarker, hs, List.dropWhile_append_of_pos fun c hc => not_marker_of_isBlank (hb c hc),
    List.dropWhile_cons_of_neg (by simp)]
  rfl

theorem takeWhile_of_blanks (hb : ∀ c ∈ bs, isBlank c) (hs : s.toList = bs ++ marker :: raw) :
    s.toList.takeWhile (· != marker) = bs := by
  rw [hs, List.takeWhile_append_of_pos fun c hc => not_marker_of_isBlank (hb c hc),
    List.takeWhile_cons_of_neg (by simp), List.append_nil]

theorem trimLeft_of_blanks (hb : ∀ c ∈ bs, isBlank c) : trimLeft (bs ++ marker :: raw) = marker :: raw := by
  rw [trimLeft, List.dropWhile_append_of_pos hb, List.dropWhile_cons_of_neg (by decide)]

/-- **A marked text** is blanks, the marker and what stands behind it. -/
theorem hasMarker_iff : hasMarker s ↔
    ∃ bs, (∀ c ∈ bs, isBlank c) ∧ s.toList = bs ++ marker :: behindMarker s := by
  constructor
  · intro h
    have hblanks : ∀ c ∈ s.toList.takeWhile isBlank, isBlank c := fun c hc => List.mem_takeWhile_imp hc
    have happend := List.takeWhile_append_dropWhile (p := isBlank) (l := s.toList)
    rw [hasMarker, beq_iff_eq, trimLeft] at h
    obtain ⟨raw, hraw⟩ := List.head?_eq_some_iff.mp h
    rw [hraw] at happend
    refine ⟨_, hblanks, ?_⟩
    rw [behindMarker_of_blanks hblanks happend.symm]
    exact happend.symm
  · rintro ⟨bs, hb, hs⟩
    rw [hasMarker, hs, trimLeft_of_blanks hb]
    rfl

theorem trimRight_cons {c : Char} (hc : isBlank c = false) (cs : List Char) :
    trimRight (c :: cs) = c :: trimRight cs := by
  have hdrop : (cs.reverse ++ [c]).dropWhile isBlank = cs.reverse.dropWhile isBlank ++ [c] := by
    rw [List.dropWhile_append]
    split
    · rename_i he
      rw [List.isEmpty_iff.mp he, List.dropWhile_cons_of_neg (by simp [hc])]
      rfl
    · rfl
  rw [trimRight, List.reverse_cons, hdrop, List.reverse_append]
  rfl

/-- The body has the tree of the text behind the marker. -/
theorem parse_body_iff (h : hasMarker s) :
    Tree.parse (body s) = .ok tree ↔ Tree.parse (behindMarker s) = .ok tree := by
  obtain ⟨bs, hb, hs⟩ := hasMarker_iff.mp h
  have hbody : body s = trim (trimRight (behindMarker s)) := by
    rw [body, hs, trim, trimLeft_of_blanks hb, trimRight_cons (by decide)]
    rfl
  rw [hbody, parse_trim_iff, parse_trimRight_iff]

/-! ### The text around a token -/

/-- The tokens of an expression around the first token of a kind. -/
theorem exists_token {p : Lexeme → Bool} (hs : hasMarker s) (hp : Tree.parse (body s) = .ok tree)
    (h : ∀ ls, tree.inOrder = some ls → ∃ l ∈ ls, p l) : ∃ before t after q,
      tokenize (behindMarker s) = .ok (before ++ t :: (after ++ [⟨.finish, q⟩])) ∧
      tree.inOrder = some (before.map Token.lexeme ++ t.lexeme :: after.map Token.lexeme) ∧
      tree.grouped ∧
      (before.map Token.lexeme ++ t.lexeme :: after.map Token.lexeme).IsChain Lexeme.Followed ∧
      (∀ l ∈ before.map Token.lexeme, p l = false) ∧ p t.lexeme := by
  obtain ⟨ls, hr, hi, hg, hc⟩ := reads_of_parse ((parse_body_iff hs).mp hp)
  obtain ⟨ts, q, ht, rfl⟩ := hr.tokens 0
  obtain ⟨l, hl, hn⟩ := h _ hi
  obtain ⟨u, hu, rfl⟩ := List.mem_map.mp hl
  have hfind : (ts.find? fun t => p t.lexeme).isSome := List.find?_isSome.mpr ⟨u, hu, hn⟩
  obtain ⟨t, ht'⟩ := Option.isSome_iff_exists.mp hfind
  obtain ⟨hfound, before, after, rfl, hb⟩ := List.find?_eq_some_iff_append.mp ht'
  simp only [List.map_append, List.map_cons] at hi hc
  refine ⟨before, t, after, q, ?_, hi, hg, hc, by simpa using hb, hfound⟩
  rw [List.append_assoc, List.cons_append] at ht
  exact ht

/-- A name stands in its run, with at most a quote before it. -/
theorem exists_name_of_scan? {run rest : List Char} {l : Lexeme} {v : String} (hl : l.isNamed v)
    (hs : Lexer.scan? (run ++ rest) = some ⟨run, rest, some l⟩) :
    ∃ quotes behind, run ++ rest = quotes ++ (v.toList ++ behind) ∧
      (∀ c ∈ quotes, c = '"' ∨ c = '\'') ∧ Lexer.EndsName behind := by
  rcases Lexeme.isNamed_iff.mp hl with rfl | rfl
  · obtain ⟨rfl, -, hends⟩ := Lexer.scan?_name hs
    exact ⟨[], rest, rfl, by simp, hends⟩
  · obtain ⟨q, hq, -, rfl⟩ := Lexer.scan?_quoted hs
    refine ⟨[q], q :: rest, by simp, by simpa using hq, Lexer.endsName_cons.mpr ?_⟩
    rcases hq with rfl | rfl
    · exact ⟨by decide, fun h => absurd h (by decide)⟩
    · exact ⟨by decide, fun h => absurd h (by decide)⟩

/-- **The text around a name.** -/
theorem text_around {before after : List Token} {t : Token} {v : String} (hs : hasMarker s)
    (ht : tokenize (behindMarker s) = .ok (before ++ t :: after)) (hne : after ≠ [])
    (hv : t.lexeme.isNamed v) : ∃ bs front quotes rest behind,
      s.toList = bs ++ marker :: (front ++ (quotes ++ (v.toList ++ behind))) ∧
      (∀ c ∈ bs, isBlank c) ∧ Reads rest front (before.map Token.lexeme) ∧
      (∀ c ∈ quotes, c = '"' ∨ c = '\'') ∧ Lexer.EndsName behind := by
  obtain ⟨front, run, rest, hcs, hfront, hscan, -⟩ :=
    Cursor.tokens_around (c := Cursor.start (behindMarker s)) ht hne
  obtain ⟨quotes, behind, hrun, hquotes, hends⟩ := exists_name_of_scan? hv hscan
  obtain ⟨bs, hb, hlist⟩ := hasMarker_iff.mp hs
  have hcs : behindMarker s = front ++ (run ++ rest) := hcs
  refine ⟨bs, front, quotes, _, behind, ?_, hb, hfront, hquotes, hends⟩
  rw [hlist, hcs, hrun]

/-- A name of a marked text is shorter than the text. -/
theorem ne_of_mentions {v : String} (hs : hasMarker s) (hp : Tree.parse (body s) = .ok tree)
    (hm : Mentions tree v) : v ≠ s := by
  rintro rfl
  obtain ⟨before, t, after, q, ht, -, -, -, -, hv⟩ :=
    exists_token hs hp fun _ hi => (Tree.mentions_iff hi).mp hm
  obtain ⟨bs, front, quotes, rest, behind, hlist, -⟩ := text_around hs ht (by simp) hv
  have hlength := congrArg List.length hlist
  simp only [List.length_append, List.length_cons] at hlength
  omega

/-- A text with a name in it is not closed. -/
theorem unclosed_of_mentions {v : String} (hp : Tree.parse (body s) = .ok tree) (hm : Mentions tree v) :
    isClosed s = false := by
  by_contra hc
  rw [Mentions, names_of_closed (by simpa using hc) hp] at hm
  cases hm

theorem extractVariable_of_open {name : String} (hc : isClosed s = false)
    (hn : variableName? s = some name) : extractVariable (.text s) = .ok (.text name) := by
  rw [extractVariable, hc, hn]
  rfl

end Expression

end RowPipeline
