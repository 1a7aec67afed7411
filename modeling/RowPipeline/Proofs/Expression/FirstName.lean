import RowPipeline.Proofs.Expression.MarkedText

/-!
# The name that is read off a text

`variableName?` reads a name off a text without reading its tokens: the first ASCII letters, joined by
single hyphens and slashes (`JoinedLetters`, `variableName?_eq_some_iff`). The lexer knows other names: bare
ones with digits but no slash, and quoted ones with anything in them. In a marked text with a tree nothing
before the first name of the tree is a letter (`exists_firstName`). So what is read off is the first name iff
that name is joined letters and the text does not join on to it with a slash
(`variableName?_eq_firstName`).
-/

namespace RowPipeline

open Text

namespace Expression

variable {s e v : String} {cs rest front : List Char} {c l : Char} {tree : Tree}

/-! ### Letters joined by hyphens and slashes -/

/-- Runs of ASCII letters, joined by single hyphens or slashes. -/
inductive JoinedLetters : List Char → Prop
  | letter {l : Char} (hl : isAsciiLetter l) : JoinedLetters [l]
  | word {l : Char} {cs : List Char} (hl : isAsciiLetter l) (h : JoinedLetters cs) :
      JoinedLetters (l :: cs)
  | join {l j : Char} {cs : List Char} (hl : isAsciiLetter l) (hj : j = '-' ∨ j = '/')
      (h : JoinedLetters cs) : JoinedLetters (l :: j :: cs)

/-- The letters joined in front of a text whose first letter has begun, and the rest. -/
def spanLetters (cs : List Char) : List Char × List Char :=
  Lexer.spanJoined (fun c => c == '-' || c == '/') isAsciiLetter cs

/-- The text does not go on with joined letters. -/
def EndsLetters (cs : List Char) : Prop := (spanLetters cs).1 = []

theorem JoinedLetters.exists_cons (h : JoinedLetters cs) :
    ∃ l more, cs = l :: more ∧ isAsciiLetter l := by
  cases h with
  | letter hl => exact ⟨_, _, rfl, hl⟩
  | word hl h => exact ⟨_, _, rfl, hl⟩
  | join hl hj h => exact ⟨_, _, rfl, hl⟩

theorem spanLetters_letter (hl : isAsciiLetter l) (cs : List Char) :
    spanLetters (l :: cs) = (l :: (spanLetters cs).1, (spanLetters cs).2) :=
  Lexer.spanJoined_word hl cs

theorem spanLetters_join {j : Char} (hj : j = '-' ∨ j = '/') (hl : isAsciiLetter l) (cs : List Char) :
    spanLetters (j :: l :: cs) = (j :: l :: (spanLetters cs).1, (spanLetters cs).2) := by
  refine Lexer.spanJoined_join ?_ (by simpa using hj) hl cs
  rcases hj with rfl | rfl
  · decide
  · decide

theorem endsLetters_cons : EndsLetters (c :: cs) ↔ isAsciiLetter c = false ∧
    ((c = '-' ∨ c = '/') → ∀ d ∈ cs.head?, isAsciiLetter d = false) := by
  unfold EndsLetters spanLetters
  cases cs with
  | nil => by_cases hc : isAsciiLetter c <;> simp [Lexer.spanJoined, hc]
  | cons d cs =>
    by_cases hc : isAsciiLetter c
    · simp [Lexer.spanJoined, hc]
    · by_cases hj : c = '-' ∨ c = '/' <;> by_cases hd : isAsciiLetter d <;>
        simp [Lexer.spanJoined, hc, hj, hd]

theorem spanLetters_of_ends (h : EndsLetters cs) : spanLetters cs = ([], cs) := by
  have happend := Lexer.spanJoined_append (fun c => c == '-' || c == '/') isAsciiLetter cs
  change (spanLetters cs).1 ++ (spanLetters cs).2 = cs at happend
  rw [h, List.nil_append] at happend
  exact Prod.ext h happend

/-- Joined letters are taken as a whole before a text that does not go on with them. -/
theorem JoinedLetters.spanLetters_append (h : JoinedLetters cs) (hr : EndsLetters rest) :
    spanLetters (cs ++ rest) = (cs, rest) := by
  induction h with
  | letter hl => rw [List.singleton_append, spanLetters_letter hl, spanLetters_of_ends hr]
  | word hl h ih => rw [List.cons_append, spanLetters_letter hl, ih]
  | join hl hj h ih =>
    obtain ⟨l', more, rfl, hl'⟩ := h.exists_cons
    rw [List.cons_append, spanLetters_letter hl'] at ih
    obtain ⟨hrun, hrest⟩ := Prod.mk.inj ih
    rw [List.cons_append, List.cons_append, List.cons_append, spanLetters_letter hl,
      spanLetters_join hj hl', hrest, (List.cons.inj hrun).2]

/-- What is taken behind a letter is joined to it. -/
theorem joinedLetters_spanLetters : ∀ {l : Char} (cs : List Char), isAsciiLetter l →
    JoinedLetters (l :: (spanLetters cs).1)
  | _, [], hl => .letter hl
  | _, c :: cs, hl => by
    by_cases hc : isAsciiLetter c
    · rw [spanLetters_letter hc]
      exact .word hl (joinedLetters_spanLetters cs hc)
    by_cases hj : (c = '-' ∨ c = '/') ∧ ∃ d more, cs = d :: more ∧ isAsciiLetter d
    · obtain ⟨hj, d, more, rfl, hd⟩ := hj
      rw [spanLetters_join hj hd]
      exact .join hl hj (joinedLetters_spanLetters more hd)
    · have hstop : EndsLetters (c :: cs) := by
        refine endsLetters_cons.mpr ⟨by simpa using hc, fun he d hd => ?_⟩
        obtain ⟨more, rfl⟩ := List.head?_eq_some_iff.mp hd
        by_contra hletter
        exact hj ⟨he, d, more, rfl, by simpa using hletter⟩
      rw [hstop]
      exact .letter hl
termination_by _ cs => cs.length

/-- Where a bare name ends, joined letters go on with a slash and a letter at most. -/
theorem endsLetters_iff (h : Lexer.EndsName cs) :
    EndsLetters cs ↔ ∀ l more, cs = '/' :: l :: more → isAsciiLetter l = false := by
  cases cs with
  | nil => exact ⟨fun _ l more he => absurd he (by simp), fun _ => rfl⟩
  | cons c cs =>
    obtain ⟨hword, hjoin⟩ := Lexer.endsName_cons.mp h
    rw [endsLetters_cons]
    constructor
    · rintro ⟨-, hj⟩ l more he
      obtain ⟨rfl, rfl⟩ := List.cons.inj he
      exact hj (Or.inr rfl) l rfl
    · intro hslash
      refine ⟨(Bool.or_eq_false_iff.mp hword).1, fun hj d hd => ?_⟩
      obtain ⟨more, rfl⟩ := List.head?_eq_some_iff.mp hd
      rcases hj with rfl | rfl
      · -- behind a hyphen a letter would belong to the bare name
        by_contra hl
        rw [Bool.not_eq_false] at hl
        exact hjoin rfl ⟨d, rfl, by rw [isAsciiWord, hl]; rfl⟩
      · exact hslash d more rfl

/-! ### The first letters of a text -/

theorem dropWhile_before_letter (hf : ∀ c ∈ front, isAsciiLetter c = false) (hl : isAsciiLetter l) :
    (front ++ l :: cs).dropWhile (fun c => !isAsciiLetter c) = l :: cs := by
  rw [List.dropWhile_append_of_pos fun c hc => by simp [hf c hc],
    List.dropWhile_cons_of_neg (by simp [hl])]

theorem variableName?_of_letter (h : s.toList.dropWhile (fun c => !isAsciiLetter c) = l :: cs) :
    variableName? s = some (String.ofList (spanLetters (l :: cs)).1) := by
  rw [variableName?, h]
  rfl

/-- **What is read off a text** are its first letters and what is joined to them. -/
theorem variableName?_eq_some_iff : variableName? s = some v ↔
    ∃ front rest, s.toList = front ++ (v.toList ++ rest) ∧
      (∀ c ∈ front, isAsciiLetter c = false) ∧ JoinedLetters v.toList ∧ EndsLetters rest := by
  constructor
  · intro h
    cases hd : s.toList.dropWhile fun c => !isAsciiLetter c with
    | nil =>
      rw [variableName?, hd] at h
      cases h
    | cons l cs =>
      have hl : isAsciiLetter l := by
        have := List.head?_dropWhile_not (fun c => !isAsciiLetter c) s.toList
        rw [hd] at this
        simpa using this
      rw [variableName?_of_letter hd, Option.some.injEq] at h
      have hv : v.toList = (spanLetters (l :: cs)).1 := by rw [← h, String.toList_ofList]
      refine ⟨s.toList.takeWhile fun c => !isAsciiLetter c, (spanLetters (l :: cs)).2, ?_, ?_, ?_, ?_⟩
      · have happend : (spanLetters (l :: cs)).1 ++ (spanLetters (l :: cs)).2 = l :: cs :=
          Lexer.spanJoined_append _ _ _
        rw [hv, happend, ← hd, List.takeWhile_append_dropWhile]
      · exact fun c hc => by simpa using List.mem_takeWhile_imp hc
      · rw [hv, spanLetters_letter hl]
        exact joinedLetters_spanLetters cs hl
      · exact Lexer.spanJoined_rest _
  · rintro ⟨front, rest, hs, hf, hv, hr⟩
    obtain ⟨l, more, hcons, hl⟩ := hv.exists_cons
    have hd : s.toList.dropWhile (fun c => !isAsciiLetter c) = l :: (more ++ rest) := by
      rw [hs, hcons, List.cons_append, dropWhile_before_letter hf hl]
    have hspan := hv.spanLetters_append hr
    rw [hcons, List.cons_append] at hspan
    rw [variableName?_of_letter hd, hspan, ← hcons, String.ofList_toList]

/-! ### The first name of a tree -/

/-- Blanks, numbers and signs hold no letters. -/
theorem isAsciiLetter_of_reads {ls : List Lexeme} (h : Reads rest front ls)
    (hls : ∀ l ∈ ls, l.isName = false) : ∀ c ∈ front, isAsciiLetter c = false := by
  have hblank : ∀ c, isBlank c → isAsciiLetter c = false := fun c hc =>
    (Bool.or_eq_false_iff.mp (isAsciiWord_blank hc)).1
  induction h with
  | blanks hb => exact fun c hc => hblank c (hb c hc)
  | @token bs run more l ls hb hs hr ih =>
    intro c hc
    rcases List.mem_append.mp hc with hc | hc
    · exact hblank c (hb c hc)
    rcases List.mem_append.mp hc with hc | hc
    · exact Lexer.isAsciiLetter_of_mem_run hs (hls l (by simp)) hc
    · exact ih (fun l' hl' => hls l' (by simp [hl'])) c hc

/-- The first name of a tree is the first name among its tokens. -/
theorem firstName?_of_inOrder {ls ls' : List Lexeme} {l : Lexeme}
    (hi : tree.inOrder = some (ls ++ l :: ls')) (hls : ∀ u ∈ ls, u.isName = false) (hl : l.isName) :
    ∃ v, tree.firstName? = some v ∧ l.isNamed v := by
  have hnone : ls.filterMap Lexeme.field? = [] :=
    List.filterMap_eq_nil_iff.mpr fun u hu => Lexeme.field?_eq_none_iff.mpr (hls u hu)
  rw [Tree.firstName?, names_of_inOrder hi, List.filterMap_append, hnone, List.nil_append]
  cases l <;> simp [Lexeme.isName] at hl
  case name text => exact ⟨text, rfl, by simp [Lexeme.isNamed]⟩
  case quoted text => exact ⟨text, rfl, by simp [Lexeme.isNamed]⟩

/-- **The text around the first name.** -/
theorem exists_firstName (he : hasMarker e) (hp : Tree.parse (body e) = .ok tree)
    (hf : tree.firstName? = some v) : ∃ front rest, e.toList = front ++ (v.toList ++ rest) ∧
      (∀ c ∈ front, isAsciiLetter c = false) ∧ Lexer.EndsName rest := by
  have hname : ∀ ls, tree.inOrder = some ls → ∃ l ∈ ls, l.isName := by
    intro ls hi
    by_contra hnone
    have hall : ls.all fun l => !l.isName := by simpa using hnone
    rw [Tree.firstName?, (names_eq_nil_iff hi).mpr hall] at hf
    cases hf
  obtain ⟨before, t, after, q, ht, hi, -, -, hb, hn⟩ := exists_token he hp hname
  obtain ⟨v', hf', hv⟩ := firstName?_of_inOrder hi hb hn
  obtain rfl : v = v' := Option.some.inj (hf.symm.trans hf')
  obtain ⟨bs, front, quotes, rest, behind, hlist, hbs, hfront, hquotes, hends⟩ :=
    text_around he ht (by simp) hv
  refine ⟨bs ++ marker :: (front ++ quotes), behind, by simp [hlist], fun c hc => ?_, hends⟩
  simp only [List.mem_append, List.mem_cons] at hc
  rcases hc with hc | rfl | hc | hc
  · exact (Bool.or_eq_false_iff.mp (isAsciiWord_blank (hbs c hc))).1
  · decide
  · exact isAsciiLetter_of_reads hfront hb c hc
  · rcases hquotes c hc with rfl | rfl
    · decide
    · decide

/-- The first letters of a text are in `v`, and a slash with a letter stands behind it. -/
def SlashFollows (s v : String) : Prop := ∃ front l rest,
  s.toList = front ++ (v.toList ++ '/' :: l :: rest) ∧ isAsciiLetter l ∧
    ∀ c ∈ front, isAsciiLetter c = false

/-- There is one place where joined letters can be the first letters of a text. -/
theorem JoinedLetters.rest_unique {front' rest' : List Char} (hv : JoinedLetters cs)
    (h : front ++ (cs ++ rest) = front' ++ (cs ++ rest'))
    (hf : ∀ c ∈ front, isAsciiLetter c = false) (hf' : ∀ c ∈ front', isAsciiLetter c = false) :
    rest = rest' := by
  obtain ⟨l, more, rfl, hl⟩ := hv.exists_cons
  have hd := congrArg (List.dropWhile fun c => !isAsciiLetter c) h
  rw [List.cons_append, List.cons_append, dropWhile_before_letter hf hl,
    dropWhile_before_letter hf' hl] at hd
  exact List.append_cancel_left (List.cons.inj hd).2

/-- **The name that is read off an expression is its first name** iff that name is ASCII letters joined by
single hyphens and slashes and no slash with a letter stands right behind it. -/
theorem variableName?_eq_firstName (e v : String) (tree : Tree) (he : hasMarker e)
    (hp : Tree.parse (body e) = .ok tree) (hf : tree.firstName? = some v) :
    (variableName? e = some v ↔ JoinedLetters v.toList ∧ ¬ SlashFollows e v) ∧
      (extractVariable (.text e) = .ok (.text v) ↔
        JoinedLetters v.toList ∧ ¬ SlashFollows e v) := by
  have hname : variableName? e = some v ↔ JoinedLetters v.toList ∧ ¬ SlashFollows e v := by
    constructor
    · intro h
      obtain ⟨front, rest, hs, hfront, hv, hends⟩ := variableName?_eq_some_iff.mp h
      refine ⟨hv, ?_⟩
      rintro ⟨front', l, rest', hs', hl, hfront'⟩
      obtain rfl := hv.rest_unique (hs.symm.trans hs') hfront hfront'
      rw [(endsLetters_cons.mp hends).2 (Or.inr rfl) l rfl] at hl
      cases hl
    · rintro ⟨hv, hslash⟩
      obtain ⟨front, rest, hs, hfront, hends⟩ := exists_firstName he hp hf
      refine variableName?_eq_some_iff.mpr ⟨front, rest, hs, hfront, hv, ?_⟩
      refine (endsLetters_iff hends).mpr fun l more hrest => ?_
      by_contra hl
      exact hslash ⟨front, l, more, hrest ▸ hs, by simpa using hl, hfront⟩
  have hmention : Mentions tree v := mentions_of_firstName? hf
  refine ⟨hname, ?_⟩
  rw [← hname, extractVariable, unclosed_of_mentions hp hmention]
  cases hv : variableName? e with
  | none => simpa using (ne_of_mentions he hp hmention).symm
  | some w => simp

/-- A name with a hyphen is read off, quoted or not. -/
theorem variableName?_eq_firstName_of_hyphen :
    let e := "=2 * \"energy-per-year\"/x"
    let tree : Tree := .binary .div (.binary .mul (.literal (.int 2)) (.name "energy-per-year" true))
      (.name "x" false)
    hasMarker e ∧ Tree.parse (body e) = .ok tree ∧ tree.firstName? = some "energy-per-year" ∧
      variableName? e = some "energy-per-year" ∧
      JoinedLetters "energy-per-year".toList ∧ ¬ SlashFollows e "energy-per-year" := by
  intro e tree
  have he : hasMarker e := by decide
  have hp : Tree.parse (body e) = .ok tree := by decide +kernel
  have hname : variableName? e = some "energy-per-year" := by decide +kernel
  exact ⟨he, hp, rfl, hname,
    (variableName?_eq_firstName e "energy-per-year" tree he hp rfl).1.mp hname⟩

/-- **A quotient of two names is read off as one name**, with the slash in it. -/
theorem variableName?_ne_firstName :
    let e := "=cpu/memory"
    let tree : Tree := .binary .div (.name "cpu" false) (.name "memory" false)
    hasMarker e ∧ Tree.parse (body e) = .ok tree ∧ tree.firstName? = some "cpu" ∧
      variableName? e = some "cpu/memory" ∧ variableName? e ≠ some "cpu" ∧
      extractVariable (.text e) = .ok (.text "cpu/memory") := by
  intro e tree
  have hp : Tree.parse (body e) = .ok tree := by decide +kernel
  have hname : variableName? e = some "cpu/memory" := by decide +kernel
  refine ⟨by decide, hp, rfl, hname, ?_, extractVariable_of_open (by decide) hname⟩
  rw [hname]
  decide

end Expression

end RowPipeline
