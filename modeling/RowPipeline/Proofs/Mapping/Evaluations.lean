import RowPipeline.Proofs.Expression.Alike
import RowPipeline.Proofs.Mapping.Configs
import RowPipeline.Proofs.Mapping.Rows

/-!
# Mapping the config or the row

A table with one entry may be applied to an expression, whose operand then has the external name, or to the
row, which then has the field under the internal name as well. In a row of numbers a name has its field or
is missing (`resolve_of_same_field`), so the operand has the same number either way and every other operand
is the same. Hence the two evaluations agree (`evaluate_mapConfig`).

Mapping the expression can fail: a new name with a run of too many digits is not looked at in the place of a
bare operand (`mapConfig_of_tooLong`, `evaluate_mapConfig_of_long`).
-/

namespace RowPipeline

open Text Expression

/-- Every field is a finite number. -/
def Record.Numeric (row : Record) : Prop :=
  ∀ k v, row.get? k = some v → ∃ a : Number, a.isFinite ∧ v = .ofNumber a

namespace Mapping

variable {n x e e' : String} {row row' : Record} {allow chain chain' : List Key} {field k : Key}
  {tree : Tree} {ops : List (String × Bool)}

/-! ### Names in rows of numbers -/

/-- A name is resolved by its field alone: two names with the same field have the same number, and a name
that is missing in two rows fails alike. -/
theorem resolve_of_same_field {s s' name name' : String} (hrow : row.Numeric)
    (hget : row'.get? (.text name') = row.get? (.text name))
    (hname : name' = name ∨ row.contains (.text name)) :
    (resolve row' allow chain' s' name').outcome = (resolve row allow chain s name).outcome := by
  cases hv : row.get? (.text name) with
  | none =>
    obtain rfl := hname.resolve_right (by simp [Fields.contains, hv])
    rw [resolve_of_none (hget.trans hv), resolve_of_none hv]
  | some v =>
    obtain ⟨a, ha, rfl⟩ := hrow _ v hv
    rw [resolve_of_number (hget.trans hv) ha, resolve_of_number hv ha]

theorem get?_mapInput_inner (hx : row.contains (.text x)) :
    ((ofPair n x).mapInput row).get? (.text n) = row.get? (.text x) := by
  obtain ⟨v, hv⟩ := Option.isSome_iff_exists.mp hx
  have hexternal : (ofPair n x).external? (.text n) = some x := get?_ofPair n x
  rw [get?_mapInput, hexternal, Option.bind_some, hv]
  rfl

theorem get?_mapInput_other {name : String} (hname : name ≠ n) :
    ((ofPair n x).mapInput row).get? (.text name) = row.get? (.text name) := by
  have hexternal : (ofPair n x).external? (.text name) = none := get?_ofPair_of_ne hname
  rw [get?_mapInput, hexternal, Option.bind_none, Option.none_or]

/-! ### Operands -/

/-- If one operand has the name, renaming it changes no other operand. -/
theorem sameOperands_replaceF {f g : String → Traced Number}
    (hone : (ops.map Prod.fst).count n = 1) (hn : (f n).outcome = (g x).outcome)
    (hother : ∀ name, name ≠ n → (f name).outcome = (g name).outcome) :
    List.Forall₂ (SameOperand f g) ops (ops.replaceF (Tree.renameOperand? n x)) := by
  induction ops with
  | nil => cases hone
  | cons op ops ih =>
    by_cases hop : op.1 = n
    · have hsome : Tree.renameOperand? n x op = some (x, op.2) := if_pos hop
      rw [List.map_cons, hop, List.count_cons_self, Nat.add_eq_right, List.count_eq_zero] at hone
      rw [List.replaceF_cons_of_some _ hsome]
      refine .cons ⟨rfl, by rw [hop, hn]⟩ (List.forall₂_same.mpr fun op' hop' => ?_)
      exact ⟨rfl, hother _ fun he => hone (he ▸ List.mem_map_of_mem hop')⟩
    · have hnone : Tree.renameOperand? n x op = none := if_neg hop
      rw [List.map_cons, List.count_cons_of_ne hop] at hone
      rw [List.replaceF_cons_of_none _ hnone]
      exact .cons ⟨rfl, hother _ hop⟩ (ih hone)

/-! ### Expressions -/

/-- An operand is renamed if the new name holds no quotes and is not too long. -/
theorem renameOperand_of_unquoted (he : hasMarker e) (hp : Tree.parse (body e) = .ok tree)
    (hm : Mentions tree n) (hne : x ≠ "") (hquotes : '"' ∉ x.toList ∧ '\'' ∉ x.toList)
    (hlong : ¬ TooLong e n x) :
    ∃ e' quoted, renameOperand e n x = .ok (some e') ∧ hasMarker e' ∧
      Tree.parse (body e') = .ok (tree.renameFirst n x quoted) := by
  obtain ⟨front, run, rest, quote, h⟩ := exists_operandAt he hp hm
  refine h.rename he hne (fun hboth => hquotes.1 hboth.1) (fun q hq => ?_) fun hn hx => ?_
  · rcases h.kind q hq with rfl | rfl
    · exact hquotes.1
    · exact hquotes.2
  · obtain ⟨ts, ht, hf⟩ := h.found
    rw [hn] at hf
    exact hlong (.inName ht hf hx)

/-- A config with one field whose key is no internal name. -/
theorem mapConfig_of_one {m : Mapping} {v v' : Value} {used : List String} (hm : m.isEmpty = false)
    (hk : m.external? k = none) (hv : m.mapValue v = .ok (v', used)) :
    m.mapConfig (.dict [(k, v)]) = .ok (.dict [(k, v')], m.eraseAll used) := by
  have hkey : m.mapKey k = (k, []) := by
    unfold mapKey
    rw [hk]
    cases k <;> rfl
  rw [mapConfig, mapConfigEntries_dict hm, mapValue, mapEntries, hkey, hv]
  simp [bind, Except.bind, mapEntries, pure, Except.pure, Entries.putAll, Entries.put]

theorem external?_ofPair (hk : k ≠ .text n) : (ofPair n x).external? k = none := by
  cases k with
  | text name =>
    have hname : name ≠ n := fun he => hk (congrArg Scalar.text he)
    exact get?_ofPair_of_ne hname
  | _ => rfl

/-- A new name that is too long to be looked at keeps the config from being mapped. -/
theorem mapConfig_of_tooLong (he : hasMarker e) (hp : Tree.parse (body e) = .ok tree)
    (hm : Mentions tree n) (hv : extractVariable (.text e) = .ok (.text n)) (hlong : TooLong e n x) :
    (ofPair n x).mapConfig (.dict [(k, .text e)]) = .error .numeralTooLong := by
  have hopen : isClosed e = false := unclosed_of_mentions hp hm
  have hsubject : subject e = n := by
    rw [extractVariable, hopen] at hv
    exact Scalar.text.inj (Value.scalar.inj (Except.ok.inj hv))
  have hkey : (ofPair n x).get? e = none := get?_ofPair_of_ne (ne_of_mentions he hp hm).symm
  have hbalks : (ofPair n x).Balks e .numeralTooLong := by
    refine ⟨hkey, he, ?_⟩
    rw [hopen, hsubject]
    exact ⟨rfl, x, get?_ofPair n x, hlong⟩
  have hvalue : (ofPair n x).mapValue (.text e) = .error .numeralTooLong := by
    rw [mapValue]
    exact mapText_eq_error_iff.mpr hbalks
  have hempty : (ofPair n x).isEmpty = false := isEmpty_of_get? (get?_ofPair n x)
  rw [mapConfig, mapConfigEntries_dict hempty, mapValue, mapEntries, hvalue]
  rfl

/-- **Mapping the config means the same as mapping the row.** One operand of the marked text `e` is named
`n`, and that is the name read off it; the row holds finite numbers, among them one under `x`. The table
maps a config with `e` under another key than `n`, unless `x` is too long to be looked at. Where the field is
allowed, the mapped text in the row and `e` in the mapped row have the same value or fail with errors of one
class; where it is not, both texts come back as they are. -/
theorem evaluate_mapConfig (n x e : String) (tree : Tree) (k field : Key) (allow : List Key)
    (row : Record) (he : hasMarker e) (hp : Tree.parse (body e) = .ok tree)
    (hone : (tree.names.map Prod.fst).count n = 1) (hv : extractVariable (.text e) = .ok (.text n))
    (hne : x ≠ "") (hquotes : '"' ∉ x.toList ∧ '\'' ∉ x.toList) (hk : k ≠ .text n)
    (hfield : field ≠ timestamp) (hrow : row.Numeric) (hx : row.contains (.text x))
    (hlong : ¬ TooLong e n x) :
    ∃ e', (ofPair n x).mapConfig (.dict [(k, .text e)]) =
        .ok (.dict [(k, .text e')], (ofPair n x).eraseAll [n]) ∧
      (allows allow field → AgreeInClass
        (evaluate ((ofPair n x).mapInput row) allow field (.text e)).outcome
        (evaluate row allow field (.text e')).outcome) ∧
      (allows allow field = false →
        (evaluate ((ofPair n x).mapInput row) allow field (.text e)).outcome = .ok (.text e) ∧
        (evaluate row allow field (.text e')).outcome = .ok (.text e')) := by
  have hm : Mentions tree n := List.count_pos_iff.mp (by omega)
  obtain ⟨e', quoted, hrename, he', hp'⟩ := renameOperand_of_unquoted he hp hm hne hquotes hlong
  have hkey : (ofPair n x).get? e = none := get?_ofPair_of_ne (ne_of_mentions he hp hm).symm
  have hvalue := mapValue_of_renamed he hv (get?_ofPair n x) hkey hrename
  have hempty : (ofPair n x).isEmpty = false := isEmpty_of_get? (get?_ofPair n x)
  refine ⟨e', mapConfig_of_one hempty (external?_ofPair hk) hvalue, ?_, ?_⟩
  · intro hallow
    have halike := tree.alike_renameFirst n x quoted
    have hopen : isClosed e' = false := by
      by_contra hc
      have hnames := names_of_closed (by simpa using hc) hp'
      rw [← halike.symm.eq_of_names_nil hnames] at hm
      rw [Mentions, hnames] at hm
      cases hm
    have hread : ReadsAs field e tree := ⟨hfield, he, unclosed_of_mentions hp hm, hp⟩
    have hread' : ReadsAs field e' (tree.renameFirst n x quoted) := ⟨hfield, he', hopen, hp'⟩
    refine evaluateWith_alike hread hread' hallow halike ?_
    rw [Tree.operands, Tree.operands, Tree.operandsAfter_renameFirst]
    refine sameOperands_replaceF ?_ ?_ fun name hname => ?_
    · rw [map_fst_operandsAfter, hone]
    · exact resolve_of_same_field hrow (get?_mapInput_inner hx) (Or.inr hx)
    · exact resolve_of_same_field hrow (get?_mapInput_other hname) (Or.inl rfl)
  · intro hallow
    have hinert : ∀ s, (needsEvaluation (.text s) && allows allow field) = false := by simp [hallow]
    exact ⟨by rw [evaluate, evaluateWith_of_inert hfield (hinert e)]; rfl,
      by rw [evaluate, evaluateWith_of_inert hfield (hinert e')]; rfl⟩

/-- A row with one whole number. -/
def single (name : String) (n : Int) : Record := Fields.insert ∅ (.text name) (.int n)

theorem get?_single (name : String) (n : Int) : (single name n).get? (.text name) = some (.int n) := by
  rw [single, Fields.get?_insert, if_pos rfl]

theorem contains_single (name : String) (n : Int) : (single name n).contains (.text name) := by
  rw [Fields.contains, get?_single]
  rfl

theorem numeric_single (name : String) (n : Int) : (single name n).Numeric := by
  intro k v hv
  rw [single, Fields.get?_insert] at hv
  split at hv
  · exact ⟨.int n, rfl, (Option.some.inj hv).symm⟩
  · cases hv

/-- A name with a slash gets quotes in the expression. -/
theorem evaluate_mapConfig_of_slash :
    let e := "=2*cpu"
    let tree : Tree := .binary .mul (.literal (.int 2)) (.name "cpu" false)
    let row := single "cpu/energy" 3
    let k : Key := .text "coefficient"
    hasMarker e ∧ Tree.parse (body e) = .ok tree ∧ (tree.names.map Prod.fst).count "cpu" = 1 ∧
      extractVariable (.text e) = .ok (.text "cpu") ∧ "cpu/energy" ≠ "" ∧
      ('"' ∉ "cpu/energy".toList ∧ '\'' ∉ "cpu/energy".toList) ∧ k ≠ .text "cpu" ∧ k ≠ timestamp ∧
      row.Numeric ∧ row.contains (.text "cpu/energy") ∧ ¬ TooLong e "cpu" "cpu/energy" ∧
      ∃ e', (ofPair "cpu" "cpu/energy").mapConfig (.dict [(k, .text e)]) =
          .ok (.dict [(k, .text e')], (ofPair "cpu" "cpu/energy").eraseAll ["cpu"]) ∧
        AgreeInClass (evaluate ((ofPair "cpu" "cpu/energy").mapInput row) [] k (.text e)).outcome
          (evaluate row [] k (.text e')).outcome := by
  intro e tree row k
  have he : hasMarker e := by decide
  have hp : Tree.parse (body e) = .ok tree := by decide +kernel
  have hv : extractVariable (.text e) = .ok (.text "cpu") :=
    extractVariable_of_open (by decide) (by decide +kernel)
  have hx : row.contains (.text "cpu/energy") := contains_single _ _
  have hlong : ¬ TooLong e "cpu" "cpu/energy" := by
    rintro (h | ⟨-, -, h⟩)
    · exact (RunsFit.of_length_le (by decide)).tokenize_ne h
    · exact (RunsFit.of_length_le (by decide)).tokenize_ne h
  have hquotes : '"' ∉ "cpu/energy".toList ∧ '\'' ∉ "cpu/energy".toList := by decide
  obtain ⟨e', hmap, hagree, -⟩ := evaluate_mapConfig "cpu" "cpu/energy" e tree k k [] row he hp rfl hv
    (by decide) hquotes (by decide) (by decide) (numeric_single _ _) hx hlong
  exact ⟨he, hp, rfl, hv, by decide, hquotes, by decide, by decide, numeric_single _ _, hx, hlong,
    e', hmap, hagree rfl⟩

/-- **A new name that is too long to be looked at**: a config with `=carbon*2` cannot be mapped to a name of
4301 digits, and in the mapped row the expression has the value 6. -/
theorem evaluate_mapConfig_of_long :
    let x := String.ofList (List.replicate (Numeral.maxDigits + 1) '1')
    let e := "=carbon*2"
    let tree : Tree := .binary .mul (.name "carbon" false) (.literal (.int 2))
    let row := single x 3
    let k : Key := .text "coefficient"
    hasMarker e ∧ Tree.parse (body e) = .ok tree ∧ (tree.names.map Prod.fst).count "carbon" = 1 ∧
      extractVariable (.text e) = .ok (.text "carbon") ∧ x ≠ "" ∧
      ('"' ∉ x.toList ∧ '\'' ∉ x.toList) ∧ k ≠ .text "carbon" ∧ k ≠ timestamp ∧
      row.Numeric ∧ row.contains (.text x) ∧
      (ofPair "carbon" x).mapConfig (.dict [(k, .text e)]) = .error .numeralTooLong ∧
      (evaluate ((ofPair "carbon" x).mapInput row) [] k (.text e)).outcome = .ok (.int 6) := by
  intro x e tree row k
  have he : hasMarker e := by decide
  have hp : Tree.parse (body e) = .ok tree := by decide +kernel
  have hopen : isClosed e = false := by decide
  have hv : extractVariable (.text e) = .ok (.text "carbon") :=
    extractVariable_of_open hopen (by decide +kernel)
  have hlist : x.toList = List.replicate (Numeral.maxDigits + 1) '1' := String.toList_ofList
  have hmem : ∀ c ∈ x.toList, c = '1' := by
    rw [hlist]
    exact fun c hc => List.eq_of_mem_replicate hc
  have hquotes : '"' ∉ x.toList ∧ '\'' ∉ x.toList :=
    ⟨fun h => absurd (hmem _ h) (by decide), fun h => absurd (hmem _ h) (by decide)⟩
  have hlength : x.toList.length = Numeral.maxDigits + 1 := by rw [hlist, List.length_replicate]
  have hne : x ≠ "" := by
    intro hx
    rw [hx] at hlength
    cases hlength
  have hx : row.contains (.text x) := contains_single x 3
  have hx' : tokenize x.toList = .error .numeralTooLong := by
    refine Lexer.tokenize_of_long (fun c hc => ?_) (by omega)
    rw [hmem c hc]
    decide
  have htokens : tokenize (behindMarker e) = .ok [⟨.name "carbon", 0⟩, ⟨.times, 6⟩,
      ⟨.number (.int 2), 7⟩, ⟨.finish, 8⟩] := by decide +kernel
  have hfail : (ofPair "carbon" x).mapConfig (.dict [(k, .text e)]) = .error .numeralTooLong :=
    mapConfig_of_tooLong he hp List.mem_cons_self hv (.inName htokens rfl hx')
  have hvalue : (evaluate ((ofPair "carbon" x).mapInput row) [] k (.text e)).outcome =
      .ok (.int 6) := by
    have hread : ReadsAs k e tree := ⟨by decide, he, hopen, hp⟩
    have hthree : (resolve ((ofPair "carbon" x).mapInput row) [] [k] e "carbon").outcome = .ok (.int 3) :=
      resolve_of_int ((get?_mapInput_inner hx).trans (get?_single x 3))
    have hfinish : (finish e k tree [.int 3]).outcome = .ok (some (.int 6)) := by decide +kernel
    rw [evaluate, evaluateWith_of_one hread rfl rfl hthree, hfinish]
    rfl
  exact ⟨he, hp, rfl, hv, hne, hquotes, by decide, by decide,
    numeric_single x 3, hx, hfail, hvalue⟩

end Mapping

end RowPipeline
