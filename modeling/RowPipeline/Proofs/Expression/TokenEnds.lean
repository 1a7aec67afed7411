import RowPipeline.Proofs.Expression.ClosedText

/-!
# Where a token ends

A token depends on the text behind it only as far as that text could make it longer (`Lexer.Ends`):
before any other text the same run is read as the same token (`Lexer.scan?_replace`). A bare name goes
on with letters, digits and a hyphen before one of these (`endsName_cons`); a sign and a quoted name end
by themselves. So a name may be put between quotes that it does not hold (`scan?_enclosed`).

No token starts or ends with a blank (`isBlank_of_scan?`, `isBlank_getLast?`).
-/

namespace RowPipeline

open Text

namespace Text

/-- The runs of decimal digits lie between the blanks. -/
theorem digitZeros_blanks : ∀ z ∈ digitZeros, 0x30 ≤ z ∧ (z + 10 ≤ 0x85 ∨ 0xA0 < z) ∧
    (z + 10 ≤ 0x1680 ∨ 0x1680 < z) ∧ (z + 10 ≤ 0x2000 ∨ 0x205F < z) ∧
      (z + 10 ≤ 0x3000 ∨ 0x3000 < z) := by decide

theorem isDigit_blank {c : Char} (h : isBlank c) : isDigit c = false := by
  by_contra hd
  rw [Bool.not_eq_false, isDigit_iff] at hd
  obtain ⟨z, hz, h1, h2⟩ := hd
  have := digitZeros_blanks z hz
  simp [isBlank] at h
  omega

theorem isAsciiWord_blank {c : Char} (h : isBlank c) : isAsciiWord c = false := by
  rw [isAsciiWord, Bool.or_eq_false_iff]
  constructor
  · by_contra hl
    rw [Bool.not_eq_false] at hl
    rw [isBlank_letter hl] at h
    cases h
  · by_contra hd
    rw [Bool.not_eq_false] at hd
    have hdigit := isDigit_ascii hd
    rw [isDigit_blank h] at hdigit
    cases hdigit

end Text

namespace Lexer

/-! ### Words joined by separators -/

section Joined

variable {separator word : Char → Bool} {c d : Char}

theorem spanJoined_word (h : word c) (cs : List Char) : spanJoined separator word (c :: cs) =
    (c :: (spanJoined separator word cs).1, (spanJoined separator word cs).2) := by
  cases cs with
  | nil => simp [spanJoined, h]
  | cons d cs => simp [spanJoined, h]

theorem spanJoined_join (h : word c = false) (hs : separator c) (hd : word d) (cs : List Char) :
    spanJoined separator word (c :: d :: cs) =
      (c :: d :: (spanJoined separator word cs).1, (spanJoined separator word cs).2) := by
  simp [spanJoined, h, hs, hd]

/-- What is left joins no further. -/
theorem spanJoined_rest : ∀ cs : List Char,
    (spanJoined separator word (spanJoined separator word cs).2).1 = []
  | [] => rfl
  | [c] => by
    by_cases h : word c
    · simp [spanJoined, h]
    · simp [spanJoined, h]
  | c :: d :: rest => by
    by_cases h : word c
    · rw [spanJoined_word h]
      exact spanJoined_rest (d :: rest)
    · have h : word c = false := by simpa using h
      by_cases hj : separator c && word d
      · obtain ⟨hs, hd⟩ := Bool.and_eq_true_iff.mp hj
        rw [spanJoined_join h hs hd]
        exact spanJoined_rest rest
      · have hstop : spanJoined separator word (c :: d :: rest) = ([], c :: d :: rest) := by
          simp [spanJoined, h, hj]
        rw [hstop, hstop]

/-- The words joined in front are so before any text that joins no further. -/
theorem spanJoined_replace {rest' : List Char} (h' : (spanJoined separator word rest').1 = []) :
    ∀ cs : List Char, spanJoined separator word ((spanJoined separator word cs).1 ++ rest') =
      ((spanJoined separator word cs).1, rest')
  | [] => by
    have := spanJoined_append separator word rest'
    rw [h', List.nil_append] at this
    exact Prod.ext h' this
  | [c] => by
    have hnil := spanJoined_replace h' []
    by_cases h : word c
    · simp [spanJoined, h] at hnil ⊢
      rw [spanJoined_word h, hnil]
    · simpa [spanJoined, h] using hnil
  | c :: d :: rest => by
    have hnil := spanJoined_replace h' []
    by_cases h : word c
    · rw [spanJoined_word h, List.cons_append, spanJoined_word h, spanJoined_replace h' (d :: rest)]
    · have h : word c = false := by simpa using h
      by_cases hj : separator c && word d
      · obtain ⟨hs, hd⟩ := Bool.and_eq_true_iff.mp hj
        rw [spanJoined_join h hs hd, List.cons_append, List.cons_append, spanJoined_join h hs hd,
          spanJoined_replace h' rest]
      · have hstop : spanJoined separator word (c :: d :: rest) = ([], c :: d :: rest) := by
          simp [spanJoined, h, hj]
        rw [hstop]
        exact hnil

end Joined

/-! ### What may stand behind a token -/

/-- The text does not go on with a bare name. -/
def EndsName (cs : List Char) : Prop := (spanJoined (· == '-') isAsciiWord cs).1 = []

/-- The text does not go on with a number, nor does it turn one into a name. -/
def EndsNumber (cs : List Char) : Prop :=
  NoDigit cs ∧ (∀ c ∈ cs.head?, isAsciiLetter c = false) ∧ ∀ more, cs = '.' :: more → NoDigit more

/-- The text makes a token no longer; signs and quoted names end by themselves. -/
def Ends : Lexeme → List Char → Prop
  | .name _, cs => EndsName cs
  | .number _, cs => EndsNumber cs
  | _, _ => True

/-- The text starts with an ASCII letter or digit. -/
def StartsWord (cs : List Char) : Prop := ∃ c ∈ cs.head?, isAsciiWord c

theorem endsName_cons {a : Char} {cs : List Char} :
    EndsName (a :: cs) ↔ isAsciiWord a = false ∧ (a = '-' → ¬ StartsWord cs) := by
  unfold EndsName StartsWord
  cases cs with
  | nil => by_cases h : isAsciiWord a <;> simp [spanJoined, h]
  | cons d cs =>
    have hword : isAsciiWord '-' = false := by decide
    by_cases h : isAsciiWord a
    · simp [spanJoined, h]
    · by_cases hj : a = '-' <;> by_cases hd : isAsciiWord d <;> simp [spanJoined, h, hj, hd, hword]

theorem takeWhile_of_noDigit {cs : List Char} (h : NoDigit cs) : cs.takeWhile isDigit = [] := by
  cases cs with
  | nil => rfl
  | cons c cs => exact List.takeWhile_cons_of_neg (by simp [h c rfl])

theorem dropWhile_of_noDigit {cs : List Char} (h : NoDigit cs) : cs.dropWhile isDigit = cs := by
  cases cs with
  | nil => rfl
  | cons c cs => exact List.dropWhile_cons_of_neg (by simp [h c rfl])

variable {cs run rest rest' : List Char} {q : Char}

theorem endsName_of_takeName? (h : takeName? cs = some (run, rest)) : EndsName rest := by
  unfold takeName? at h
  split at h
  · cases h
  · split at h
    · obtain ⟨rfl, rfl⟩ := Prod.mk.inj (Option.some.inj h)
      exact spanJoined_rest _
    · cases h

/-- A bare name starts with a letter or a digit. -/
theorem startsWord_of_takeName? (h : takeName? cs = some (run, rest)) : StartsWord cs := by
  obtain ⟨ds, l, after, hds, hl, rfl⟩ := takeName?_letter h
  cases ds with
  | nil => exact ⟨l, rfl, by rw [isAsciiWord, hl]; rfl⟩
  | cons d ds => exact ⟨d, rfl, by rw [isAsciiWord, hds d (by simp), Bool.or_true]⟩

/-- A bare name is so before any text that does not go on with it. -/
theorem takeName?_replace (h : takeName? cs = some (run, rest)) (h' : EndsName rest') :
    takeName? (run ++ rest') = some (run, rest') := by
  unfold takeName? at h
  split at h
  · cases h
  rename_i l after hd
  split at h
  · rename_i hl
    obtain ⟨rfl, rfl⟩ := Prod.mk.inj (Option.some.inj h)
    have hl' := isAsciiDigit_letter hl
    have hall : ∀ c ∈ cs.takeWhile isAsciiDigit, isAsciiDigit c := fun c hc =>
      List.mem_takeWhile_imp hc
    rw [List.append_assoc, List.cons_append, takeName?, List.dropWhile_append_of_pos hall,
      List.takeWhile_append_of_pos hall, List.dropWhile_cons_of_neg (by simp [hl']),
      List.takeWhile_cons_of_neg (by simp [hl'])]
    simp [hl, spanJoined_replace h']
  · cases h

theorem takeQuoted?_eq_some (h : takeQuoted? q cs = some (run, rest)) :
    ∃ name, name ≠ [] ∧ q ∉ name ∧ run = name ++ [q] := by
  unfold takeQuoted? at h
  split at h
  · cases h
  · cases h
  rename_i c name q' after ht hd
  obtain ⟨rfl, rfl⟩ := Prod.mk.inj (Option.some.inj h)
  have hq : q' = q := by
    have := List.head?_dropWhile_not (· != q) cs
    rw [hd] at this
    simpa using this
  refine ⟨c :: name, by simp, fun hmem => ?_, by rw [hq]⟩
  rw [← ht] at hmem
  simpa using List.mem_takeWhile_imp hmem

/-- A name between quotes is read whatever follows. -/
theorem takeQuoted?_enclosed {name : List Char} (hne : name ≠ []) (hq : q ∉ name)
    (rest : List Char) : takeQuoted? q (name ++ q :: rest) = some (name ++ [q], rest) := by
  have hall : ∀ c ∈ name, (c != q) = true := fun c hc => bne_iff_ne.mpr fun he => hq (he ▸ hc)
  rw [takeQuoted?, List.takeWhile_append_of_pos hall, List.dropWhile_append_of_pos hall,
    List.takeWhile_cons_of_neg (by simp), List.dropWhile_cons_of_neg (by simp), List.append_nil]
  cases name with
  | nil => exact absurd rfl hne
  | cons c name => rfl

theorem takeNumber?_digits {d : Char} {ds : List Char} (hd : ∀ c ∈ d :: ds, isDigit c)
    (hr : NoDigit rest) (hp : ∀ more, rest = '.' :: more → NoDigit more) :
    takeNumber? (d :: ds ++ rest) = some (d :: ds, rest) := by
  have hnil : rest.takeWhile isDigit = [] := takeWhile_of_noDigit hr
  have hself : rest.dropWhile isDigit = rest := dropWhile_of_noDigit hr
  rw [takeNumber?, List.takeWhile_append_of_pos hd, List.dropWhile_append_of_pos hd, hnil, hself,
    List.append_nil]
  split
  · rename_i he; cases he
  · rename_i more he
    obtain ⟨rfl, rfl⟩ := List.cons.inj he
    rw [takeWhile_of_noDigit (hp more rfl)]
  · rename_i he _
    obtain ⟨rfl, rfl⟩ := List.cons.inj he
    rfl

theorem takeNumber?_decimal {d f : Char} {ds fs : List Char} (hd : ∀ c ∈ d :: ds, isDigit c)
    (hf : ∀ c ∈ f :: fs, isDigit c) (hr : NoDigit rest) :
    takeNumber? (d :: ds ++ '.' :: f :: fs ++ rest) = some (d :: ds ++ '.' :: f :: fs, rest) := by
  have hpoint : isDigit '.' = false := by decide
  have hstop : NoDigit ('.' :: (f :: fs ++ rest)) := by
    rintro c ⟨rfl⟩
    exact hpoint
  have hcs : d :: ds ++ '.' :: f :: fs ++ rest = d :: ds ++ '.' :: (f :: fs ++ rest) := by simp
  rw [hcs, takeNumber?, List.takeWhile_append_of_pos hd, List.dropWhile_append_of_pos hd,
    takeWhile_of_noDigit hstop, dropWhile_of_noDigit hstop, List.append_nil]
  have htake : (f :: fs ++ rest).takeWhile isDigit = f :: fs := by
    rw [List.takeWhile_append_of_pos hf, takeWhile_of_noDigit hr, List.append_nil]
  have hdrop : (f :: fs ++ rest).dropWhile isDigit = rest := by
    rw [List.dropWhile_append_of_pos hf, dropWhile_of_noDigit hr]
  simp only [htake, hdrop]

/-- A number is so before any text that does not go on with it. -/
theorem takeNumber?_replace (h : takeNumber? cs = some (run, rest)) (h' : EndsNumber rest') :
    takeNumber? (run ++ rest') = some (run, rest') := by
  obtain ⟨d, ds, hd, -, ⟨rfl, -, -⟩ | ⟨f, fs, hf, rfl, -⟩⟩ := takeNumber?_cases h
  · exact takeNumber?_digits hd h'.1 h'.2.2
  · exact takeNumber?_decimal hd hf h'.1

/-- The run of a number holds digits and points only. -/
theorem mem_number {c : Char} (h : takeNumber? cs = some (run, rest)) (hc : c ∈ run) :
    isDigit c ∨ c = '.' := by
  obtain ⟨d, ds, hd, -, ⟨rfl, -, -⟩ | ⟨f, fs, hf, rfl, -⟩⟩ := takeNumber?_cases h
  · exact Or.inl (hd c hc)
  · rcases List.mem_append.mp hc with hc | hc
    · exact Or.inl (hd c hc)
    rcases List.mem_cons.mp hc with rfl | hc
    · exact Or.inr rfl
    · exact Or.inl (hf c hc)

/-- A number is no name where no letter follows. -/
theorem takeName?_number (h : takeNumber? cs = some (run, rest)) (h' : EndsNumber rest') :
    takeName? (run ++ rest') = none := by
  by_contra hn
  obtain ⟨⟨run', after⟩, hn⟩ := Option.ne_none_iff_exists'.mp hn
  obtain ⟨ds, l, after, hds, hl, he⟩ := takeName?_letter hn
  rcases List.append_eq_append_iff.mp he with ⟨ds', rfl, hrest⟩ | ⟨more, rfl, hmore⟩
  · cases ds' with
    | nil => rw [h'.2.1 l (by simp [hrest])] at hl; cases hl
    | cons c ds' =>
      have := isDigit_ascii (hds c (by simp))
      rw [h'.1 c (by simp [hrest])] at this
      cases this
  · cases more with
    | nil =>
      rw [List.nil_append] at hmore
      rw [h'.2.1 l (by simp [← hmore])] at hl
      cases hl
    | cons c more =>
      obtain ⟨rfl, -⟩ := List.cons.inj hmore
      rcases mem_number h (c := l) (by simp) with hd | rfl
      · rw [isDigit_letter hl] at hd
        cases hd
      · exact absurd hl (by decide)

/-! ### The match at the front -/

variable {m : Match} {l : Lexeme} {s : String}

theorem scan?_operator {c : Char} (h : operator? c = some l) (cs : List Char) :
    scan? (c :: cs) = some ⟨[c], cs, some l⟩ := by
  simp [scan?, h]

theorem scan?_of_takeQuoted? (hq : q = '"' ∨ q = '\'') (h : takeQuoted? q cs = some (run, rest)) :
    scan? (q :: cs) = some ⟨q :: run, rest, some (.quoted (unquote (q :: run)))⟩ := by
  have hop : operator? q = none := by rcases hq with rfl | rfl <;> decide
  simp [scan?, hop, hq, h]

theorem scan?_of_takeName? (h : takeName? cs = some (run, rest)) :
    scan? cs = some ⟨run, rest, some (.name (String.ofList run))⟩ := by
  obtain ⟨c, hc, hw⟩ := startsWord_of_takeName? h
  cases cs with
  | nil => cases hc
  | cons c' cs =>
    obtain rfl : c' = c := Option.some.inj hc
    have hq : ¬ (c' = '"' ∨ c' = '\'') := by
      rintro (rfl | rfl)
      · exact absurd hw (by decide)
      · exact absurd hw (by decide)
    have hop : operator? c' = none := by
      by_contra hop
      obtain ⟨l, hl⟩ := Option.ne_none_iff_exists'.mp hop
      rcases Expression.isSign_iff.mp (Expression.operator?_eq_some hl).1 with rfl | rfl | rfl | rfl
      all_goals exact absurd hw (by decide)
    simp [scan?, hop, hq, h]

theorem scan?_of_takeNumber? {c : Char} (hop : operator? c = none) (hq : ¬ (c = '"' ∨ c = '\''))
    (hn : takeName? (c :: cs) = none) (h : takeNumber? (c :: cs) = some (run, rest)) :
    scan? (c :: cs) = some ⟨run, rest, (literal? run).map .number⟩ := by
  simp [scan?, hop, hq, hn, h]

/-- **A token is read in the same way before any text that makes it no longer.** -/
theorem scan?_replace (h : scan? cs = some m) (hl : m.lexeme? = some l) (he : Ends l rest') :
    scan? (m.run ++ rest') = some ⟨m.run, rest', some l⟩ := by
  cases cs with
  | nil => cases h
  | cons c cs =>
    rcases scan?_cases h with ⟨l', hop, rfl⟩ | ⟨-, hq, run, rest, ht, rfl⟩ |
      ⟨hop, hq, run, rest, hn, rfl⟩ | ⟨hop, hq, hname, run, rest, hn, rfl⟩
    · obtain rfl := Option.some.inj hl
      exact scan?_operator hop rest'
    · obtain rfl := Option.some.inj hl
      obtain ⟨name, hne, hmem, rfl⟩ := takeQuoted?_eq_some ht
      have := takeQuoted?_enclosed hne hmem rest'
      rw [List.cons_append, List.append_assoc]
      exact scan?_of_takeQuoted? hq this
    · obtain rfl := Option.some.inj hl
      exact scan?_of_takeName? (takeName?_replace hn he)
    · obtain ⟨a, ha, rfl⟩ := Option.map_eq_some_iff.mp hl
      have hrun := takeNumber?_replace hn he
      have hnone := takeName?_number hn he
      obtain ⟨hcs, hne⟩ := takeNumber?_append hn
      cases run with
      | nil => exact absurd rfl hne
      | cons c' run =>
        obtain ⟨rfl, rfl⟩ := List.cons.inj hcs
        rw [List.cons_append] at hrun hnone ⊢
        rw [scan?_of_takeNumber? hop hq hnone hrun, ha]
        rfl

/-- An operator is one sign. -/
theorem scan?_sign (h : scan? cs = some ⟨run, rest, some l⟩) (hl : l.isOperator) :
    ∃ a, Expression.isSign a ∧ run = [a] := by
  cases cs with
  | nil => cases h
  | cons c cs =>
    rcases scan?_cases h with ⟨l', hop, he⟩ | ⟨-, hq, run', rest', ht, he⟩ |
      ⟨hop, hq, run', rest', hn, he⟩ | ⟨hop, hq, hname, run', rest', hn, he⟩
    · exact ⟨c, (Expression.operator?_eq_some hop).1, (Match.mk.inj he).1⟩
    · obtain rfl := Option.some.inj (Match.mk.inj he).2.2
      cases hl
    · obtain rfl := Option.some.inj (Match.mk.inj he).2.2
      cases hl
    · obtain ⟨a, -, rfl⟩ := Option.map_eq_some_iff.mp (Match.mk.inj he).2.2.symm
      cases hl

/-- A sign or a number holds no letter. -/
theorem isAsciiLetter_of_mem_run {c : Char} (h : scan? cs = some ⟨run, rest, some l⟩)
    (hl : l.isName = false) (hc : c ∈ run) : isAsciiLetter c = false := by
  cases cs with
  | nil => cases h
  | cons c' cs =>
    rcases scan?_cases h with ⟨l', hop, he⟩ | ⟨-, hq, run', rest', ht, he⟩ |
      ⟨hop, hq, run', rest', hn, he⟩ | ⟨hop, hq, hname, run', rest', hn, he⟩
    · obtain ⟨rfl, -, -⟩ := Match.mk.inj he
      obtain rfl := List.mem_singleton.mp hc
      rcases Expression.isSign_iff.mp (Expression.operator?_eq_some hop).1 with rfl | rfl | rfl | rfl
      all_goals decide
    · obtain rfl := Option.some.inj (Match.mk.inj he).2.2
      cases hl
    · obtain rfl := Option.some.inj (Match.mk.inj he).2.2
      cases hl
    · obtain ⟨rfl, -, -⟩ := Match.mk.inj he
      rw [← Bool.not_eq_true]
      intro hletter
      rcases mem_number hn hc with hd | rfl
      · rw [isDigit_letter hletter] at hd
        cases hd
      · exact absurd hletter (by decide)

/-- A bare name is all of its run, and what is left does not go on with it. -/
theorem scan?_name (h : scan? cs = some ⟨run, rest, some (.name s)⟩) :
    run = s.toList ∧ takeName? cs = some (run, rest) ∧ EndsName rest := by
  cases cs with
  | nil => cases h
  | cons c cs =>
    rcases scan?_cases h with ⟨l', hop, he⟩ | ⟨-, hq, run', rest', ht, he⟩ |
      ⟨hop, hq, run', rest', hn, he⟩ | ⟨hop, hq, hname, run', rest', hn, he⟩
    · obtain rfl : Lexeme.name s = l' := Option.some.inj (Match.mk.inj he).2.2
      exact absurd (Expression.operator?_eq_some hop).2.2.1 (by simp [Lexeme.isOperator])
    · simp at he
    · obtain ⟨rfl, rfl, hs⟩ := Match.mk.inj he
      obtain rfl : s = String.ofList run := by simpa using hs
      exact ⟨by simp, hn, endsName_of_takeName? hn⟩
    · obtain ⟨a, -, ha⟩ := Option.map_eq_some_iff.mp (Match.mk.inj he).2.2.symm
      cases ha

/-- A quoted name stands between two quotes of one kind, and they do not occur in it. -/
theorem scan?_quoted (h : scan? cs = some ⟨run, rest, some (.quoted s)⟩) :
    ∃ q, (q = '"' ∨ q = '\'') ∧ q ∉ s.toList ∧ run = q :: (s.toList ++ [q]) := by
  cases cs with
  | nil => cases h
  | cons c cs =>
    rcases scan?_cases h with ⟨l', hop, he⟩ | ⟨-, hq, run', rest', ht, he⟩ |
      ⟨hop, hq, run', rest', hn, he⟩ | ⟨hop, hq, hname, run', rest', hn, he⟩
    · obtain rfl : Lexeme.quoted s = l' := Option.some.inj (Match.mk.inj he).2.2
      exact absurd (Expression.operator?_eq_some hop).2.2.1 (by simp [Lexeme.isOperator])
    · obtain ⟨name, -, hmem, rfl⟩ := takeQuoted?_eq_some ht
      obtain ⟨rfl, rfl, hs⟩ := Match.mk.inj he
      obtain rfl : s = String.ofList name := by simpa [unquote] using hs
      exact ⟨c, hq, by simpa using hmem, by simp⟩
    · simp at he
    · obtain ⟨a, -, ha⟩ := Option.map_eq_some_iff.mp (Match.mk.inj he).2.2.symm
      cases ha

/-- A quoted name is read between quotes that do not occur in it. -/
theorem scan?_enclosed (hq : q = '"' ∨ q = '\'') (hne : s ≠ "") (hmem : q ∉ s.toList)
    (rest : List Char) : scan? (q :: (s.toList ++ [q]) ++ rest) =
      some ⟨q :: (s.toList ++ [q]), rest, some (.quoted s)⟩ := by
  have hne' : s.toList ≠ [] := by simpa using hne
  have := scan?_of_takeQuoted? hq (takeQuoted?_enclosed hne' hmem rest)
  simpa [unquote] using this

/-- A digit in front starts a name or a number. -/
theorem scan?_of_digit (cs : List Char) {c : Char} (hc : isDigit c) :
    (∃ run rest, takeName? (c :: cs) = some (run, rest) ∧
      scan? (c :: cs) = some ⟨run, rest, some (.name (String.ofList run))⟩) ∨
    takeName? (c :: cs) = none ∧ ∃ run rest, takeNumber? (c :: cs) = some (run, rest) ∧
      scan? (c :: cs) = some ⟨run, rest, (literal? run).map .number⟩ := by
  have hop : operator? c = none := by
    by_contra hop
    obtain ⟨l, hl⟩ := Option.ne_none_iff_exists'.mp hop
    rw [(Expression.operator?_eq_some hl).2.1] at hc
    cases hc
  have hq : ¬ (c = '"' ∨ c = '\'') := by
    rintro (rfl | rfl)
    · exact absurd hc (by decide)
    · exact absurd hc (by decide)
  rcases hname : takeName? (c :: cs) with _ | ⟨run, rest⟩
  · rcases hnumber : takeNumber? (c :: cs) with _ | ⟨run, rest⟩
    · rw [takeNumber?_eq_none hnumber] at hc
      cases hc
    · exact Or.inr ⟨rfl, run, rest, rfl, scan?_of_takeNumber? hop hq hname hnumber⟩
  · exact Or.inl ⟨run, rest, rfl, scan?_of_takeName? hname⟩

/-- A run of too many digits in front is a numeral that has no value. -/
theorem tokenize_of_long_front {cs rest : List Char} (hd : ∀ c ∈ cs, isDigit c)
    (hlong : Numeral.maxDigits < cs.length) (hends : EndsNumber rest) :
    tokenize (cs ++ rest) = .error .numeralTooLong := by
  cases cs with
  | nil => cases hlong
  | cons c cs =>
    have hdigit : isDigit c := hd c (by simp)
    have hnumber := takeNumber?_digits hd hends.1 hends.2.2
    have hname := takeName?_number hnumber hends
    have hpoint : '.' ∉ c :: cs := fun hp => absurd (hd '.' hp) (by decide)
    have hliteral : literal? (c :: cs) = none := by
      have hnone : Numeral.ofDigits? (c :: cs) = none := if_neg (Nat.not_le.mpr hlong)
      rw [literal?, if_neg (by simpa using hpoint), hnone]
      rfl
    have hblank : isBlank c = false := by
      by_contra hb
      rw [isDigit_blank (by simpa using hb)] at hdigit
      cases hdigit
    rcases scan?_of_digit (cs ++ rest) hdigit with ⟨run, tail, hname', -⟩ | ⟨-, run, tail, hnumber', hs⟩
    · cases hname'.symm.trans hname
    · obtain ⟨rfl, rfl⟩ := Prod.mk.inj (Option.some.inj (hnumber'.symm.trans hnumber))
      exact Cursor.tokens_of_long (List.dropWhile_cons_of_neg (by simp [hblank])) hs (by rw [hliteral]; rfl)

theorem tokenize_of_long {cs : List Char} (hd : ∀ c ∈ cs, isDigit c)
    (hlong : Numeral.maxDigits < cs.length) : tokenize cs = .error .numeralTooLong := by
  have := tokenize_of_long_front hd hlong (⟨by simp [NoDigit], by simp, by simp⟩ : EndsNumber [])
  rwa [List.append_nil] at this

/-! ### Blanks -/

/-- No token starts with a blank. -/
theorem isBlank_of_scan? {c : Char} (h : scan? (c :: cs) = some m) : isBlank c = false := by
  by_contra hb
  rw [Bool.not_eq_false] at hb
  have hdigit := isDigit_blank hb
  have hword := isAsciiWord_blank hb
  rw [isAsciiWord, Bool.or_eq_false_iff] at hword
  rcases scan?_cases h with ⟨l, hop, -⟩ | ⟨-, hq, -⟩ | ⟨-, -, run, rest, hn, -⟩ |
    ⟨-, -, -, run, rest, hn, -⟩
  · rcases Expression.isSign_iff.mp (Expression.operator?_eq_some hop).1 with rfl | rfl | rfl | rfl
    all_goals exact absurd hb (by decide)
  · rcases hq with rfl | rfl
    · exact absurd hb (by decide)
    · exact absurd hb (by decide)
  · rw [takeName?, List.dropWhile_cons_of_neg (by simp [hword.2])] at hn
    simp [hword.1] at hn
  · rw [takeNumber?, List.takeWhile_cons_of_neg (by simp [hdigit])] at hn
    cases hn

theorem mem_spanJoined {separator word : Char → Bool} {c : Char} : ∀ {cs : List Char},
    c ∈ (spanJoined separator word cs).1 → word c ∨ separator c
  | [], h => by simp [spanJoined] at h
  | [d], h => by
    by_cases hd : word d <;> simp [spanJoined, hd] at h
    exact Or.inl (h ▸ hd)
  | d :: e :: rest, h => by
    by_cases hd : word d
    · rw [spanJoined_word hd] at h
      rcases List.mem_cons.mp h with rfl | h
      · exact Or.inl hd
      · exact mem_spanJoined h
    · by_cases hj : separator d && word e
      · obtain ⟨hs, he⟩ := Bool.and_eq_true_iff.mp hj
        rw [spanJoined_join (by simpa using hd) hs he] at h
        rcases List.mem_cons.mp h with rfl | h
        · exact Or.inr hs
        rcases List.mem_cons.mp h with rfl | h
        · exact Or.inl he
        · exact mem_spanJoined h
      · simp [spanJoined, hd, hj] at h

theorem isBlank_of_mem_name {c : Char} (h : takeName? cs = some (run, rest)) (hc : c ∈ run) :
    isBlank c = false := by
  by_contra hb
  rw [Bool.not_eq_false] at hb
  have hword := isAsciiWord_blank hb
  rw [isAsciiWord, Bool.or_eq_false_iff] at hword
  unfold takeName? at h
  split at h
  · cases h
  split at h
  · rename_i l after hd hl
    obtain ⟨rfl, rfl⟩ := Prod.mk.inj (Option.some.inj h)
    rcases List.mem_append.mp hc with hc | hc
    · have hdigit := List.mem_takeWhile_imp hc
      rw [hword.2] at hdigit
      cases hdigit
    rcases List.mem_cons.mp hc with rfl | hc
    · rw [hword.1] at hl
      cases hl
    · rcases mem_spanJoined hc with hw | hj
      · rw [isAsciiWord_blank hb] at hw
        cases hw
      · rw [beq_iff_eq] at hj
        subst hj
        exact absurd hb (by decide)
  · cases h

/-- No token ends with a blank. -/
theorem isBlank_getLast? (h : scan? cs = some m) : ∀ c ∈ m.run.getLast?, isBlank c = false := by
  intro c hc
  cases cs with
  | nil => cases h
  | cons c' cs =>
    rcases scan?_cases h with ⟨l, hop, rfl⟩ | ⟨-, hq, run, rest, ht, rfl⟩ |
      ⟨-, -, run, rest, hn, rfl⟩ | ⟨-, -, -, run, rest, hn, rfl⟩
    · obtain rfl : c' = c := by simpa using hc
      exact isBlank_of_scan? h
    · obtain ⟨name, -, -, rfl⟩ := takeQuoted?_eq_some ht
      obtain rfl : c' = c := by simpa [List.getLast?_cons] using hc
      exact isBlank_of_scan? h
    · exact isBlank_of_mem_name hn (List.mem_of_getLast? hc)
    · rw [← Bool.not_eq_true]
      intro hblank
      rcases mem_number hn (List.mem_of_getLast? hc) with hd | rfl
      · rw [isDigit_blank hblank] at hd
        cases hd
      · exact absurd hblank (by decide)

end Lexer

end RowPipeline
