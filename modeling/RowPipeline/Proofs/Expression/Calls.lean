import RowPipeline.Proofs.Expression.LongestMatch
import RowPipeline.Proofs.Expression.Spelling

/-!
# Calling for one token after the other

A reader that is called again and again goes through its text from left to right. Each call that gives a token
takes a span of the text, from the position of the token to the place where the reader stands afterwards
(`Cursor.span`). `Reading` says what becomes of a text: the spans are apart from each other and hold all that is
not blank (`Tiles`), each is the longest text in its place that one of the patterns describes (`IsTokenAt`), and
in the end the reader stands still, at the end of the text or at a character where no pattern matches.

Main statement: every text whose whole numbers have no more digits than a numeral may have is read in this way
(`calls_read_losslessly`). One call keeps the place in the text (`Within.next`), so the spans are put in front of each
other, the last one first.
-/

namespace RowPipeline

open Text Lexer

/-! ### Spans -/

/-- A part of a text, from the position where it starts to the one where it stops. -/
structure Span where
  start : Nat
  stop : Nat
  deriving DecidableEq

/-- The characters of a span. -/
def Span.text (cs : List Char) (s : Span) : List Char := (cs.drop s.start).take (s.stop - s.start)

/-- The pattern of a kind describes a span, where it stands in the text. -/
def Lexer.Kind.Describes (k : Kind) (cs : List Char) (s : Span) : Prop :=
  s.start ≤ s.stop ∧ s.stop ≤ cs.length ∧
    k.pattern.Matches (cs.take s.start).getLast? (s.text cs) (cs.drop s.stop)

/-- The token says what the first pattern that matches at the start of the span finds there, and no pattern
describes a longer span. -/
structure IsTokenAt (cs : List Char) (s : Span) (t : Token) : Prop where
  position : t.position = s.start
  first : ∃ earlier k later, Kind.all = earlier ++ k :: later ∧ k.Describes cs s ∧
    k.lexeme? (s.text cs) = some t.lexeme ∧ ∀ k' ∈ earlier, ∀ stop, ¬ k'.Describes cs ⟨s.start, stop⟩
  longest : ∀ k ∈ Kind.all, ∀ stop, k.Describes cs ⟨s.start, stop⟩ → stop ≤ s.stop

/-- Spans between two positions, none of them empty, one behind the other, and blanks around them. -/
structure Tiles (cs : List Char) (start : Nat) (spans : List Span) (stop : Nat) : Prop where
  le : start ≤ stop
  nonempty : ∀ s ∈ spans, s.start < s.stop
  increasing : spans.Pairwise fun s s' => s.stop ≤ s'.start
  between : ∀ s ∈ spans, start ≤ s.start ∧ s.stop ≤ stop
  blank : ∀ p, start ≤ p → p < stop → (∀ s ∈ spans, ¬ (s.start ≤ p ∧ p < s.stop)) →
    ∃ ch, cs[p]? = some ch ∧ isBlank ch

/-! ### Calls -/

namespace Cursor

/-- The place after a number of calls. -/
def after (c : Cursor) (n : Nat) : Cursor := (fun c => c.next.2)^[n] c

/-- What a call gives after a number of calls, and the place after it. -/
def call (c : Cursor) (n : Nat) : Except Failure Token × Cursor := (c.after n).next

/-- The span that a call takes behind the blanks. -/
def span (c : Cursor) : Span := ⟨c.skipBlanks.position, c.next.2.position⟩

/-- The spans of the first calls. -/
def spans (c : Cursor) (n : Nat) : List Span := (List.range n).map fun i => (c.after i).span

end Cursor

/-- No call takes a whole number of too many digits. -/
def LiteralsFit (cs : List Char) (c : Cursor) : Prop :=
  ∀ i, (∀ d ∈ (c.after i).span.text cs, isDigit d) →
    ((c.after i).span.text cs).length ≤ Numeral.maxDigits

/-- What becomes of a text that is read from a place on: tokens, and then the end mark or the same failure for
ever. -/
structure Reading (cs : List Char) (c : Cursor) (n stop : Nat) : Prop where
  tokens : ∀ i < n, ∃ t, (c.call i).1 = .ok t ∧ t.lexeme ≠ .finish ∧ IsTokenAt cs (c.after i).span t
  tiles : Tiles cs c.position (c.spans n) stop
  ending : (stop = cs.length ∧ ∀ i, n ≤ i → c.call i = (.ok ⟨.finish, stop⟩, ⟨stop, []⟩)) ∨
    ∃ ch, cs[stop]? = some ch ∧ (∀ k ∈ Kind.all, ∀ p, ¬ k.Describes cs ⟨stop, p⟩) ∧
      ∀ i, n ≤ i → c.call i = (.error (.lexical ch stop), ⟨stop, cs.drop stop⟩)

variable {cs : List Char} {c : Cursor} {s : Span} {spans : List Span} {m : Match} {k : Kind} {p stop : Nat}

namespace Cursor

@[simp] theorem after_zero : c.after 0 = c := rfl

theorem after_succ (c : Cursor) (n : Nat) : c.after (n + 1) = c.next.2.after n :=
  Function.iterate_succ_apply _ n c

theorem call_succ (c : Cursor) (n : Nat) : c.call (n + 1) = c.next.2.call n := by
  rw [call, after_succ, call]

theorem spans_succ (c : Cursor) (n : Nat) : c.spans (n + 1) = c.span :: c.next.2.spans n := by
  rw [spans, List.range_succ_eq_map, List.map_cons, List.map_map]
  rfl

/-- A call that takes nothing is repeated for ever. -/
theorem call_of_stays {answer : Except Failure Token} (h : c.next = (answer, c.skipBlanks)) (n : Nat) :
    c.call n = (answer, c.skipBlanks) := by
  induction n generalizing c with
  | zero => exact h
  | succ n ih =>
    have hskip : c.skipBlanks.next = (answer, c.skipBlanks.skipBlanks) := by
      rw [next_skipBlanks, skipBlanks_skipBlanks, h]
    rw [call_succ, h, ih hskip, skipBlanks_skipBlanks]

end Cursor

/-! ### Places in a text -/

/-- A place in a text. -/
structure Within (cs : List Char) (c : Cursor) : Prop where
  rest : c.rest = cs.drop c.position
  le : c.position ≤ cs.length

theorem within_start (cs : List Char) : Within cs (Cursor.start cs) := ⟨rfl, Nat.zero_le _⟩

namespace Within

/-- The place behind a beginning of what is left. -/
theorem advance {run rest : List Char} (h : Within cs c) (he : c.rest = run ++ rest) :
    Within cs ⟨c.position + run.length, rest⟩ := by
  have hdrop : cs.drop c.position = run ++ rest := h.rest.symm.trans he
  refine ⟨?_, ?_⟩
  · rw [← List.drop_drop, hdrop, List.drop_left]
  · have := congrArg List.length hdrop
    rw [List.length_drop, List.length_append] at this
    have hle := h.le
    simp only
    omega

theorem skipBlanks (h : Within cs c) : Within cs c.skipBlanks :=
  h.advance List.takeWhile_append_dropWhile.symm

/-- Up to the next token there are blanks. -/
theorem exists_blank (h : Within cs c) (hle : c.position ≤ p) (hlt : p < c.skipBlanks.position) :
    ∃ ch, cs[p]? = some ch ∧ isBlank ch := by
  have hi : p - c.position < (c.rest.takeWhile isBlank).length := by
    rw [Cursor.skipBlanks] at hlt
    simp only at hlt
    omega
  have hfront : c.rest.takeWhile isBlank <+: c.rest := List.takeWhile_prefix _
  refine ⟨_, ?_, List.mem_takeWhile_imp (List.getElem_mem hi)⟩
  calc cs[p]? = c.rest[p - c.position]? := by
        rw [h.rest, List.getElem?_drop, Nat.add_sub_cancel' hle]
    _ = some (c.rest.takeWhile isBlank)[p - c.position] := by
        rw [hfront.getElem hi, List.getElem?_eq_getElem]

/-- A pattern describes a span in front of a place iff its text is a beginning of what is left there. -/
theorem describes_iff (h : Within cs c) : k.Describes cs ⟨c.position, stop⟩ ↔
    ∃ run, run <+: c.rest ∧ stop = c.position + run.length ∧ k.Fits run := by
  simp only [Kind.Describes, Kind.matches_iff, Span.text, ← h.rest]
  have hlength : c.rest.length = cs.length - c.position := by rw [h.rest, List.length_drop]
  constructor
  · rintro ⟨hle, hstop, hfits⟩
    refine ⟨_, List.take_prefix _ _, ?_, hfits⟩
    rw [List.length_take]
    omega
  · rintro ⟨run, hp, rfl, hfits⟩
    have hrun := hp.length_le
    have hle := h.le
    refine ⟨Nat.le_add_right _ _, by omega, ?_⟩
    rwa [Nat.add_sub_cancel_left, ← List.prefix_iff_eq_take.mp hp]

end Within

/-! ### One call -/

section Call

variable {ch : Char} {rest : List Char} {l : Lexeme}

theorem span_of_scan? (hd : c.rest.dropWhile isBlank = ch :: rest) (hs : scan? (ch :: rest) = some m) :
    c.span = ⟨c.skipBlanks.position, c.skipBlanks.position + m.run.length⟩ := by
  rcases hl : m.lexeme? with _ | l
  · rw [Cursor.span, Cursor.next_of_long hd hs hl]
  · rw [Cursor.span, Cursor.next_of_lexeme hd hs hl]

/-- The text of the span is what the patterns found. -/
theorem Within.text_span (h : Within cs c) (hd : c.rest.dropWhile isBlank = ch :: rest)
    (hs : scan? (ch :: rest) = some m) : c.span.text cs = m.run := by
  have hskip : cs.drop c.skipBlanks.position = m.run ++ m.rest := by
    rw [← h.skipBlanks.rest, (scan?_append hs).1]
    exact hd
  rw [span_of_scan? hd hs, Span.text, hskip, Nat.add_sub_cancel_left, List.take_left]

/-- **A call takes the longest match.** -/
theorem Within.isTokenAt (h : Within cs c) (hd : c.rest.dropWhile isBlank = ch :: rest)
    (hs : scan? (ch :: rest) = some m) (hl : m.lexeme? = some l) :
    IsTokenAt cs c.span ⟨l, c.skipBlanks.position⟩ := by
  have hw := h.skipBlanks
  have hrest : c.skipBlanks.rest = ch :: rest := hd
  have hrun : m.run <+: c.skipBlanks.rest := ⟨m.rest, (scan?_append hs).1.trans hrest.symm⟩
  have htext := h.text_span hd hs
  obtain ⟨k, ⟨hfits, earlier, later, hall, hno⟩, hlexeme⟩ := exists_isFirst_of_scan? hs
  rw [span_of_scan? hd hs] at htext ⊢
  refine ⟨rfl, ⟨earlier, k, later, hall, ?_, ?_, ?_⟩, ?_⟩
  · exact hw.describes_iff.mpr ⟨m.run, hrun, rfl, hfits⟩
  · rw [htext, hlexeme, hl]
  · intro k' hk' stop hdescribes
    obtain ⟨run, hp, -, hfits'⟩ := hw.describes_iff.mp hdescribes
    exact hno k' hk' run (hrest ▸ hp) hfits'
  · intro k' hk' stop hdescribes
    obtain ⟨run, hp, rfl, hfits'⟩ := hw.describes_iff.mp hdescribes
    exact Nat.add_le_add_left (length_le_of_fits hs hk' (hrest ▸ hp) hfits') _

/-- Where a whole number is too long the call takes it. -/
theorem Within.not_literalsFit (h : Within cs c) (hd : c.rest.dropWhile isBlank = ch :: rest)
    (hs : scan? (ch :: rest) = some m) (hl : m.lexeme? = none) : ¬ LiteralsFit cs c := by
  intro hfit
  have hlong : (∀ d ∈ m.run, isDigit d) ∧ Numeral.maxDigits < m.run.length := by
    rcases scan?_cases hs with ⟨l, -, rfl⟩ | ⟨-, -, run, _, -, rfl⟩ | ⟨-, -, run, _, -, rfl⟩ |
      ⟨-, -, -, run, _, hn, rfl⟩
    · cases hl
    · cases hl
    · cases hl
    · exact Expression.long_of_literal hn (Option.map_eq_none_iff.mp hl)
  have := hfit 0
  rw [Cursor.after_zero, h.text_span hd hs] at this
  have hle := this hlong.1
  omega

theorem LiteralsFit.next (h : LiteralsFit cs c) : LiteralsFit cs c.next.2 := fun i => by
  rw [← Cursor.after_succ]
  exact h (i + 1)

/-- In a short text no whole number is too long. -/
theorem LiteralsFit.of_length_le (h : cs.length ≤ Numeral.maxDigits) : LiteralsFit cs c := by
  intro i _
  rw [Span.text, List.length_take, List.length_drop]
  omega

end Call

/-! ### All calls -/

theorem Tiles.nil {start : Nat} (hle : start ≤ stop)
    (hblank : ∀ p, start ≤ p → p < stop → ∃ ch, cs[p]? = some ch ∧ isBlank ch) : Tiles cs start [] stop :=
  ⟨hle, by simp, .nil, by simp, fun p hp hlt _ => hblank p hp hlt⟩

/-- A span may be put in front, with blanks before it. -/
theorem Tiles.cons {start : Nat} (h : Tiles cs s.stop spans stop) (hle : start ≤ s.start)
    (hlt : s.start < s.stop) (hblank : ∀ p, start ≤ p → p < s.start → ∃ ch, cs[p]? = some ch ∧ isBlank ch) :
    Tiles cs start (s :: spans) stop := by
  have hstop := h.le
  refine ⟨by omega, ?_, ?_, ?_, ?_⟩
  · exact List.forall_mem_cons.mpr ⟨hlt, h.nonempty⟩
  · exact .cons (fun s' hs' => (h.between s' hs').1) h.increasing
  · refine List.forall_mem_cons.mpr ⟨⟨hle, hstop⟩, fun s' hs' => ?_⟩
    obtain ⟨h1, h2⟩ := h.between s' hs'
    exact ⟨by omega, h2⟩
  · intro p hp hlt' hno
    obtain ⟨hout, hrest⟩ := List.forall_mem_cons.mp hno
    rcases Nat.lt_or_ge p s.start with hbefore | hbehind
    · exact hblank p hp hbefore
    · exact h.blank p (by omega) hlt' hrest

namespace Reading

variable {n : Nat} {t : Token}

/-- The reader stands still at the end of the text. -/
theorem of_end (h : Within cs c) (hd : c.rest.dropWhile isBlank = []) :
    Reading cs c 0 c.skipBlanks.position := by
  have hw := h.skipBlanks
  have hrest : c.skipBlanks.rest = [] := hd
  have hend : c.skipBlanks.position = cs.length :=
    Nat.le_antisymm hw.le (List.drop_eq_nil_iff.mp (hw.rest.symm.trans hrest))
  refine ⟨by simp, .nil (Nat.le_add_right _ _) fun p => h.exists_blank, Or.inl ⟨hend, fun i _ => ?_⟩⟩
  rw [Cursor.call_of_stays (Cursor.next_of_end hd), ← hrest]

/-- The reader stands still at a character where no pattern matches. -/
theorem of_foreign {ch : Char} {rest : List Char} (h : Within cs c)
    (hd : c.rest.dropWhile isBlank = ch :: rest) (hs : scan? (ch :: rest) = none) :
    Reading cs c 0 c.skipBlanks.position := by
  have hw := h.skipBlanks
  have hrest : c.skipBlanks.rest = ch :: rest := hd
  refine ⟨by simp, .nil (Nat.le_add_right _ _) fun p => h.exists_blank, Or.inr ⟨ch, ?_, ?_, fun i _ => ?_⟩⟩
  · rw [← List.head?_drop, ← hw.rest, hrest, List.head?_cons]
  · intro k hk p hdescribes
    obtain ⟨run, hp, -, hfits⟩ := hw.describes_iff.mp hdescribes
    exact not_fits_of_scan?_eq_none (isBlank_of_dropWhile hd) hs hk (hrest ▸ hp) hfits
  · rw [Cursor.call_of_stays (Cursor.next_of_foreign hd hs), ← hw.rest]

/-- A call that gives a token comes before the others. -/
theorem cons (h : Within cs c) (hr : Reading cs c.next.2 n stop) (hnext : c.next.1 = .ok t)
    (hfinish : t.lexeme ≠ .finish) (ht : IsTokenAt cs c.span t) (hlt : c.span.start < c.span.stop) :
    Reading cs c (n + 1) stop := by
  refine ⟨fun i hi => ?_, ?_, ?_⟩
  · cases i with
    | zero => exact ⟨t, hnext, hfinish, ht⟩
    | succ i =>
      rw [Cursor.call_succ, Cursor.after_succ]
      exact hr.tokens i (Nat.lt_of_succ_lt_succ hi)
  · rw [Cursor.spans_succ]
    exact hr.tiles.cons (Nat.le_add_right _ _) hlt fun p => h.exists_blank
  · have hcalls : ∀ {answer place}, (∀ i, n ≤ i → c.next.2.call i = (answer, place)) →
        ∀ i, n + 1 ≤ i → c.call i = (answer, place) := by
      intro answer place hall i hi
      obtain ⟨j, rfl⟩ := Nat.exists_eq_add_of_lt hi
      rw [Cursor.call_succ]
      exact hall _ (Nat.le_add_right _ _)
    rcases hr.ending with ⟨hend, hall⟩ | ⟨ch, hch, hno, hall⟩
    · exact Or.inl ⟨hend, hcalls hall⟩
    · exact Or.inr ⟨ch, hch, hno, hcalls hall⟩

end Reading

/-- Every place in a text is read on without loss. -/
theorem Within.exists_reading (h : Within cs c) (hfit : LiteralsFit cs c) :
    ∃ n stop, Reading cs c n stop := by
  induction c using Cursor.reading_induction with
  | finish c hd => exact ⟨0, _, .of_end h hd⟩
  | foreign c ch rest hd hs => exact ⟨0, _, .of_foreign h hd hs⟩
  | long c ch rest m hd hs hl => exact absurd hfit (h.not_literalsFit hd hs hl)
  | lexeme c ch rest m l hd hs hl ih =>
    have hnext := Cursor.next_of_lexeme hd hs hl
    have hrest : c.skipBlanks.rest = m.run ++ m.rest := Eq.trans hd (scan?_append hs).1.symm
    have hlater := hfit.next
    rw [hnext] at hlater
    obtain ⟨n, stop, hr⟩ := ih _ (h.skipBlanks.advance hrest) hlater
    refine ⟨n + 1, stop, .cons h (by rw [hnext]; exact hr) (by rw [hnext]) ?_ (h.isTokenAt hd hs hl) ?_⟩
    · exact fun he => scan?_ne_finish hs (by rw [hl, ← he])
    · rw [span_of_scan? hd hs]
      exact Nat.lt_add_of_pos_right (List.length_pos_iff.mpr (scan?_append hs).2)

/-- **Every text is read without loss.** If no whole number has too many digits, the calls give tokens, each of
them the longest match in its place, until the reader stands still at the end or at a character where no pattern
matches; in between there are only blanks. -/
theorem calls_read_losslessly (cs : List Char) (hfit : LiteralsFit cs (Cursor.start cs)) :
    ∃ n stop, Reading cs (Cursor.start cs) n stop :=
  (within_start cs).exists_reading hfit

example : (Cursor.start "2a-1 --٣.".toList).spans 4 = [⟨0, 4⟩, ⟨5, 6⟩, ⟨6, 7⟩, ⟨7, 8⟩] := by decide +kernel

/-- Names, hyphens, digits of two scripts and a point that belongs to no number; the second text stops at a
character that starts no token. -/
theorem calls_read_losslessly_mixed :
    (LiteralsFit "2a-1 --12.5*٣2x".toList (Cursor.start "2a-1 --12.5*٣2x".toList) ∧
      ∃ n stop, Reading "2a-1 --12.5*٣2x".toList (Cursor.start "2a-1 --12.5*٣2x".toList) n stop) ∧
    (LiteralsFit "a- \"b 1.x".toList (Cursor.start "a- \"b 1.x".toList) ∧
      ∃ n stop, Reading "a- \"b 1.x".toList (Cursor.start "a- \"b 1.x".toList) n stop) := by
  have h : LiteralsFit "2a-1 --12.5*٣2x".toList (Cursor.start "2a-1 --12.5*٣2x".toList) :=
    .of_length_le (by decide)
  have h' : LiteralsFit "a- \"b 1.x".toList (Cursor.start "a- \"b 1.x".toList) := .of_length_le (by decide)
  exact ⟨⟨h, calls_read_losslessly _ h⟩, ⟨h', calls_read_losslessly _ h'⟩⟩

end RowPipeline
