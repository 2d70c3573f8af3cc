import Mathlib
import Semijoin.Expr.Basic
import Semijoin.Proofs.NumeralText

/-!
# Unique readability

Expressions over unnamed columns, nulls, integers and strings without quotes can be read back from
their SQL: the same text comes from the same operators over the same positions and values. Minus is
a binary operator, a unary one and a sign, and `NOT` begins one operator and stands inside another;
what tells them apart is where a word of the text ends.
-/

namespace Semijoin

/-! ## Runs -/

/-- Texts that begin with a run of one sort and go on with another sort are split in one way. -/
theorem append_inj_of_run {α : Type} {p : α → Bool} {run run' rest rest' : List α}
    (hrun : ∀ x ∈ run, p x) (hrun' : ∀ x ∈ run', p x) (hrest : rest.head?.all (!p ·))
    (hrest' : rest'.head?.all (!p ·)) (h : run ++ rest = run' ++ rest') :
    run = run' ∧ rest = rest' := by
  constructor
  · rw [← takeWhile_append_eq hrun hrest, h, takeWhile_append_eq hrun' hrest']
  · rw [← dropWhile_append_eq hrun hrest, h, dropWhile_append_eq hrun' hrest']

namespace Text

@[simp] theorem points_append (s t : Text) : (s ++ t).points = s.points ++ t.points := rfl

theorem ofString_injective : Function.Injective ofString :=
  Function.LeftInverse.injective toString_ofString

theorem points_injective : Function.Injective points := fun _ _ h => congrArg mk h

theorem points_ofString_append (s t : String) :
    (ofString (s ++ t)).points = (ofString s).points ++ (ofString t).points := by
  simp [ofString, ofChars]

end Text

/-! ## Words -/

/-- Whether a code point is part of a word: it is no blank, parenthesis or quote. -/
def CodePoint.isWordPoint (p : CodePoint) : Bool :=
  p ∉ [char ' ', char '(', char ')', char '\'']

/-- A sequence of code points within a word. -/
def IsWord (w : List CodePoint) : Prop := ∀ p ∈ w, p.isWordPoint

instance (w : List CodePoint) : Decidable (IsWord w) := inferInstanceAs (Decidable (∀ _ ∈ _, _))

/-- Whether no word goes on in what follows. -/
def EndsWord (rest : List CodePoint) : Prop := rest.head?.all (!CodePoint.isWordPoint ·)

/-- The code points of a string. -/
abbrev spelling (s : String) : List CodePoint := (Text.ofString s).points

theorem endsWord_blank (rest : List CodePoint) : EndsWord (.char ' ' :: rest) := rfl

theorem endsWord_close (rest : List CodePoint) : EndsWord (.char ')' :: rest) := rfl

theorem IsWord.append_inj {w w' rest rest' : List CodePoint} (hw : IsWord w) (hw' : IsWord w')
    (hrest : EndsWord rest) (hrest' : EndsWord rest') (h : w ++ rest = w' ++ rest') :
    w = w' ∧ rest = rest' :=
  append_inj_of_run hw hw' hrest hrest' h

/-- A word begins with none of the points that end one. -/
theorem IsWord.append_ne_cons {w rest rest' : List CodePoint} {p : CodePoint} (hw : IsWord w)
    (hne : w ≠ []) (hp : p.isWordPoint = false) : w ++ rest ≠ p :: rest' := by
  obtain ⟨q, qs, rfl⟩ := List.exists_cons_of_ne_nil hne
  intro heq
  have hq : q.isWordPoint := hw q List.mem_cons_self
  rw [(List.cons.inj heq).1, hp] at hq
  cases hq

theorem isWord_spelling {s : String} (h : Over (fun c => c ∉ [' ', '(', ')', '\'']) s) :
    IsWord (spelling s) := by
  intro p hp
  obtain ⟨c, hc, rfl⟩ := List.mem_map.mp hp
  simpa [CodePoint.isWordPoint] using h c hc

/-- An integer is written with digits and a sign. -/
theorem over_toString_int_digit (n : Int) : Over (fun c => c.isDigit ∨ c = '-') (toString n) := by
  have hrepr (m : Nat) : Over (fun c => c.isDigit ∨ c = '-') (Nat.repr m) :=
    fun c hc => .inl (Numeral.digits_repr m c hc)
  cases n with
  | ofNat m => exact hrepr m
  | negSucc m => exact over_append.mpr ⟨by decide, hrepr _⟩

theorem isWord_toString_int (n : Int) : IsWord (spelling (toString n)) := by
  have hdelimiter : ∀ c ∈ [' ', '(', ')', '\''], ¬ (c.isDigit ∨ c = '-') := by simp
  exact isWord_spelling ((over_toString_int_digit n).mono fun c hc hmem => hdelimiter c hmem hc)

theorem exists_digit_toString_int (n : Int) : ∃ c ∈ (toString n).toList, c.isDigit := by
  have hrepr (m : Nat) : ∃ c ∈ (Nat.repr m).toList, c.isDigit := by
    obtain ⟨c, cs, hcs⟩ := List.exists_cons_of_ne_nil (Numeral.repr_ne_nil m)
    have hc : c ∈ (Nat.repr m).toList := hcs ▸ List.mem_cons_self
    exact ⟨c, hc, Numeral.digits_repr m c hc⟩
  cases n with
  | ofNat m => exact hrepr m
  | negSucc m =>
    obtain ⟨c, hc, hdigit⟩ := hrepr (m + 1)
    have hmem : c ∈ ("-" ++ Nat.repr (m + 1)).toList := by
      rw [String.toList_append]
      exact List.mem_append_right _ hc
    exact ⟨c, hmem, hdigit⟩

/-! ## Readable expressions -/

/-- Whether a literal is a null, an integer that no quotes go around, or a string in quotes that has
none itself. -/
def Literal.isReadable (l : Literal) : Bool :=
  match l.value with
  | .null => true
  | .int _ => l.type ≠ .varchar && l.type ≠ .text
  | .str s => (l.type = .varchar || l.type = .text) && .char '\'' ∉ s.points
  | _ => false

namespace Expr

/-- Whether an expression consists of operators over readable literals and columns without names. -/
def isReadable : Expr → Bool
  | col c => c.name.all Text.isEmpty
  | lit l => l.isReadable
  | bin _ left right => left.isReadable && right.isReadable
  | un _ operand => operand.isReadable
  | foreign _ => false

/-- Whether two expressions have the same operators in the same places over columns at the same
positions and literals of the same values. Types and nullability may differ. -/
inductive SameForm : Expr → Expr → Prop where
  | col {a b : Column} (h : a.index = b.index) : SameForm (col a) (col b)
  | lit {a b : Literal} (h : a.value = b.value) : SameForm (lit a) (lit b)
  | bin {op : BinaryOperator} {l l' r r' : Expr} (hl : SameForm l l') (hr : SameForm r r') :
      SameForm (bin op l r) (bin op l' r')
  | un {op : UnaryOperator} {e e' : Expr} (h : SameForm e e') : SameForm (un op e) (un op e')

/-- How a column, a null or an integer is written, which is as a word. -/
inductive SpelledAsWord : Expr → List CodePoint → Prop where
  | col (c : Column) : SpelledAsWord (col c) (.char '$' :: spelling (toString c.index))
  | null {l : Literal} (hl : l.value = .null) : SpelledAsWord (lit l) (spelling "NULL")
  | int {l : Literal} {n : Int} (hl : l.value = .int n) :
      SpelledAsWord (lit l) (spelling (toString n))

/-- A text that begins with a readable expression, and what follows it there. An expression is
written as a word, as a string in quotes, or in parentheses with the symbol between the operands, in
front of the one operand or behind it. -/
inductive Spelled : Expr → List CodePoint → List CodePoint → Prop where
  | word {e : Expr} {w rest : List CodePoint} (hw : SpelledAsWord e w) (hrest : EndsWord rest) :
      Spelled e (w ++ rest) rest
  | quoted {l : Literal} {s : Text} {rest : List CodePoint} (hl : l.value = .str s)
      (hs : .char '\'' ∉ s.points) :
      Spelled (lit l) (.char '\'' :: (s.points ++ .char '\'' :: rest)) rest
  | between {op : BinaryOperator} {l r : Expr} {t u rest : List CodePoint}
      (hl : Spelled l t (.char ' ' :: (spelling op.symbol ++ .char ' ' :: u)))
      (hr : Spelled r u (.char ')' :: rest)) : Spelled (bin op l r) (.char '(' :: t) rest
  | front {op : UnaryOperator} {e : Expr} {t rest : List CodePoint} (hop : op.isNullTest = false)
      (he : Spelled e t (.char ')' :: rest)) :
      Spelled (un op e) (.char '(' :: (spelling op.symbol ++ .char ' ' :: t)) rest
  | behind {op : UnaryOperator} {e : Expr} {t rest : List CodePoint} (hop : op.isNullTest = true)
      (he : Spelled e t (.char ' ' :: (spelling op.symbol ++ .char ')' :: rest))) :
      Spelled (un op e) (.char '(' :: t) rest

theorem spelled_sql {e : Expr} (h : e.isReadable) {rest : List CodePoint} (hrest : EndsWord rest) :
    Spelled e (e.sql.points ++ rest) rest := by
  induction e generalizing rest with
  | col c =>
    have hsql : c.sql = ("$" ++ toString c.index : String) := by
      unfold Column.sql
      split
      · rfl
      · next name hname =>
        rw [isReadable, hname] at h
        exact if_pos h
    rw [sql, hsql, Text.points_ofString_append]
    exact .word (.col c) hrest
  | lit l =>
    obtain ⟨id, value, type⟩ := l
    cases value with
    | null => exact .word (.null rfl) hrest
    | int n =>
      have htype : ¬ (type = .varchar ∨ type = .text) := by
        simpa [isReadable, Literal.isReadable, not_or] using h
      have hsql : (lit ⟨id, .int n, type⟩).sql = (toString n : String) := by
        simp [sql, Literal.sql, Literal.isNull, htype, Value.plain, Value.quoted]
      rw [hsql]
      exact .word (.int rfl) hrest
    | str s =>
      obtain ⟨htype, hs⟩ : (type = .varchar ∨ type = .text) ∧ .char '\'' ∉ s.points := by
        simpa [isReadable, Literal.isReadable] using h
      have hsql : (lit ⟨id, .str s, type⟩).sql.points ++ rest =
          .char '\'' :: (s.points ++ .char '\'' :: rest) := by
        simp [sql, Literal.sql, Literal.isNull, htype, Value.plain, Text.ofString, Text.ofChars]
      rw [hsql]
      exact .quoted rfl hs
    | _ => cases h
  | bin op left right ihl ihr =>
    simp only [isReadable, Bool.and_eq_true] at h
    have hspelled : Spelled (bin op left right) _ rest :=
      .between (ihl h.1 (endsWord_blank _)) (ihr h.2 (endsWord_close _))
    simpa [sql, spelling, Text.ofString, Text.ofChars] using hspelled
  | un op operand ih =>
    cases hop : op.isNullTest with
    | true =>
      have hspelled : Spelled (un op operand) _ rest := .behind hop (ih h (endsWord_blank _))
      simpa [sql, hop, spelling, Text.ofString, Text.ofChars] using hspelled
    | false =>
      have hspelled : Spelled (un op operand) _ rest := .front hop (ih h (endsWord_close _))
      simpa [sql, hop, spelling, Text.ofString, Text.ofChars] using hspelled
  | foreign f => cases h

/-! ## Words and symbols -/

variable {e e' : Expr} {w x x' rest rest' : List CodePoint}

theorem spelling_injective : Function.Injective spelling :=
  Text.points_injective.comp Text.ofString_injective

theorem SpelledAsWord.isWord (h : SpelledAsWord e w) : IsWord w := by
  cases h with
  | col c => exact List.forall_mem_cons.mpr ⟨by decide, isWord_toString_int c.index⟩
  | null => decide
  | int => exact isWord_toString_int _

/-- A word has a digit, unless it stands for null. -/
theorem SpelledAsWord.null_or_digit (h : SpelledAsWord e w) :
    w = spelling "NULL" ∨ ∃ c, c.isDigit ∧ .char c ∈ w := by
  have hint (n : Int) : ∃ c, c.isDigit ∧ .char c ∈ spelling (toString n) := by
    obtain ⟨c, hc, hdigit⟩ := exists_digit_toString_int n
    exact ⟨c, hdigit, List.mem_map_of_mem hc⟩
  cases h with
  | col c =>
    obtain ⟨d, hd, hmem⟩ := hint c.index
    exact .inr ⟨d, hd, List.mem_cons_of_mem _ hmem⟩
  | null => exact .inl rfl
  | int => exact .inr (hint _)

theorem SpelledAsWord.ne_spelling {s : String} (h : SpelledAsWord e w)
    (hs : Over (¬ ·.isDigit) s) (hnull : s ≠ "NULL") : w ≠ spelling s := by
  intro heq
  obtain hw | ⟨c, hdigit, hc⟩ := h.null_or_digit
  · exact hnull (spelling_injective (heq.symm.trans hw))
  · obtain ⟨d, hd, hcd⟩ := List.mem_map.mp (heq ▸ hc)
    exact hs c (CodePoint.char.inj hcd ▸ hd) hdigit

theorem SpelledAsWord.sameForm (h : SpelledAsWord e w) (h' : SpelledAsWord e' w') (heq : w = w') :
    SameForm e e' := by
  have hnull (n : Int) : spelling (toString n) ≠ spelling "NULL" := by
    obtain ⟨c, hc, hdigit⟩ := exists_digit_toString_int n
    intro heq
    rw [spelling_injective heq] at hc
    exact (by decide : Over (¬ ·.isDigit) "NULL") c hc hdigit
  have hdollar (n : Int) (t : List CodePoint) : .char '$' :: t ≠ spelling (toString n) := by
    intro heq
    have hmem : CodePoint.char '$' ∈ spelling (toString n) := heq ▸ List.mem_cons_self
    obtain ⟨c, hc, hcd⟩ := List.mem_map.mp hmem
    obtain rfl := CodePoint.char.inj hcd
    exact absurd (over_toString_int_digit n _ hc) (by decide)
  cases h with
  | col c =>
    cases h' with
    | col c' => exact .col (Int.repr_inj.mp (spelling_injective (List.cons.inj heq).2))
    | null => exact absurd (List.cons.inj heq).1 (by decide)
    | int => exact absurd heq (hdollar _ _)
  | null hl =>
    cases h' with
    | col c' => exact absurd (List.cons.inj heq).1 (by decide)
    | null hl' => exact .lit (hl.trans hl'.symm)
    | int => exact absurd heq.symm (hnull _)
  | int hl =>
    cases h' with
    | col c' => exact absurd heq.symm (hdollar _ _)
    | null => exact absurd heq (hnull _)
    | int hl' =>
      have hvalue := Int.repr_inj.mp (spelling_injective heq)
      exact .lit (by rw [hl, hl', hvalue])

/-! ## Symbols -/

theorem isWord_symbol (op : BinaryOperator) : IsWord (spelling op.symbol) := by
  cases op <;> decide

theorem binarySymbol_injective : Function.Injective BinaryOperator.symbol := by
  have hsymbol (op : BinaryOperator) : BinaryOperator.ofSymbol? op.symbol = some op := by
    cases op <;> rfl
  intro op op' h
  exact Option.some.inj ((hsymbol op).symm.trans (h ▸ hsymbol op'))

theorem unarySymbol_injective : Function.Injective UnaryOperator.symbol := by
  have hsymbol (op : UnaryOperator) : UnaryOperator.ofSymbol? op.symbol = some op := by
    cases op <;> rfl
  intro op op' h
  exact Option.some.inj ((hsymbol op).symm.trans (h ▸ hsymbol op'))

theorem isWord_front {op : UnaryOperator} (h : op.isNullTest = false) :
    IsWord (spelling op.symbol) := by
  cases op with
  | not | negate => decide
  | isNull | isNotNull => cases h

/-- No word is the symbol of an operator that stands in front of its operand. -/
theorem SpelledAsWord.ne_front {op : UnaryOperator} (h : SpelledAsWord e w)
    (hop : op.isNullTest = false) : w ≠ spelling op.symbol := by
  cases op with
  | not | negate => exact h.ne_spelling (by decide) (by decide)
  | isNull | isNotNull => cases hop

/-- The symbol of a null test begins with a word that is no other symbol. -/
theorem binarySymbol_append_ne {op : BinaryOperator} {op' : UnaryOperator}
    (hop' : op'.isNullTest = true) :
    spelling op.symbol ++ .char ' ' :: rest ≠ spelling op'.symbol ++ .char ')' :: rest' := by
  obtain ⟨more, hmore⟩ : ∃ more, spelling op'.symbol = spelling "IS" ++ .char ' ' :: more := by
    cases op' with
    | isNull => exact ⟨spelling "NULL", rfl⟩
    | isNotNull => exact ⟨spelling "NOT NULL", rfl⟩
    | not | negate => cases hop'
  rw [hmore, List.append_assoc]
  intro heq
  obtain ⟨hsymbol, -⟩ := (isWord_symbol op).append_inj (by decide : IsWord (spelling "IS"))
    (endsWord_blank _) (endsWord_blank _) heq
  have hne : op.symbol ≠ "IS" := by cases op <;> decide
  exact hne (spelling_injective hsymbol)

/-- What is written as a word begins neither with a quote nor with a parenthesis. -/
theorem SpelledAsWord.append_ne_cons {p : CodePoint} (h : SpelledAsWord e w)
    (hp : p.isWordPoint = false) : w ++ rest ≠ p :: rest' := by
  refine h.isWord.append_ne_cons (fun hnil => ?_) hp
  obtain hw | ⟨c, -, hc⟩ := h.null_or_digit
  · exact nomatch hw.symm.trans hnil
  · exact List.not_mem_nil (hnil ▸ hc)

/-! ## Reading back -/

variable {t t' : List CodePoint}

/-- No expression begins like an operator in front of its operand. -/
theorem Spelled.ne_front {op : UnaryOperator} (h : Spelled e t rest) (hop : op.isNullTest = false) :
    t ≠ spelling op.symbol ++ .char ' ' :: rest' := by
  have hfront : IsWord (spelling op.symbol) := isWord_front hop
  have hne : spelling op.symbol ≠ [] := by cases op <;> exact List.cons_ne_nil _ _
  intro heq
  cases h with
  | word hw hrest =>
    exact hw.ne_front hop (hw.isWord.append_inj hfront hrest (endsWord_blank _) heq).1
  | quoted | between | front | behind => exact hfront.append_ne_cons hne rfl heq.symm

/-- A text begins with one expression only. -/
theorem Spelled.unique (h : Spelled e t rest) (h' : Spelled e' t' rest') (heq : t = t') :
    SameForm e e' ∧ rest = rest' := by
  induction h generalizing e' t' rest' with
  | word hw hrest =>
    cases h' with
    | word hw' hrest' =>
      obtain ⟨hwords, hend⟩ := hw.isWord.append_inj hw'.isWord hrest hrest' heq
      exact ⟨hw.sameForm hw' hwords, hend⟩
    | quoted | between | front | behind => exact absurd heq (hw.append_ne_cons rfl)
  | quoted hl hs =>
    cases h' with
    | word hw' => exact absurd heq.symm (hw'.append_ne_cons rfl)
    | quoted hl' hs' =>
      obtain ⟨hvalue, hend⟩ := append_inj_of_run (p := (· ≠ .char '\''))
        (fun q hq => decide_eq_true (ne_of_mem_of_not_mem hq hs))
        (fun q hq => decide_eq_true (ne_of_mem_of_not_mem hq hs')) rfl rfl (List.cons.inj heq).2
      rw [Text.points_injective hvalue, ← hl'] at hl
      exact ⟨.lit hl, (List.cons.inj hend).2⟩
    | between | front | behind => exact absurd (List.cons.inj heq).1 (by decide)
  | @between op l r t u rest hl hr ihl ihr =>
    cases h' with
    | word hw' => exact absurd heq.symm (hw'.append_ne_cons rfl)
    | quoted => exact absurd (List.cons.inj heq).1 (by decide)
    | @between op' l' r' t' u' _ hl' hr' =>
      obtain ⟨hleft, hbehind⟩ := ihl hl' (List.cons.inj heq).2
      obtain ⟨hsymbol, hoperand⟩ := (isWord_symbol op).append_inj (isWord_symbol op')
        (endsWord_blank u) (endsWord_blank u') (List.cons.inj hbehind).2
      obtain ⟨hright, hend⟩ := ihr hr' (List.cons.inj hoperand).2
      obtain rfl := binarySymbol_injective (spelling_injective hsymbol)
      exact ⟨.bin hleft hright, (List.cons.inj hend).2⟩
    | front hop' he' => exact absurd (List.cons.inj heq).2 (hl.ne_front hop')
    | behind hop' he' =>
      obtain ⟨-, hbehind⟩ := ihl he' (List.cons.inj heq).2
      exact absurd (List.cons.inj hbehind).2 (binarySymbol_append_ne hop')
  | @front op e t rest hop he ih =>
    cases h' with
    | word hw' => exact absurd heq.symm (hw'.append_ne_cons rfl)
    | quoted => exact absurd (List.cons.inj heq).1 (by decide)
    | between hl' | behind _ hl' => exact absurd (List.cons.inj heq).2.symm (hl'.ne_front hop)
    | @front op' e' t' _ hop' he' =>
      obtain ⟨hsymbol, hoperand⟩ := (isWord_front hop).append_inj (isWord_front hop')
        (endsWord_blank t) (endsWord_blank t') (List.cons.inj heq).2
      obtain ⟨hform, hend⟩ := ih he' (List.cons.inj hoperand).2
      obtain rfl := unarySymbol_injective (spelling_injective hsymbol)
      exact ⟨.un hform, (List.cons.inj hend).2⟩
  | @behind op e t rest hop he ih =>
    cases h' with
    | word hw' => exact absurd heq.symm (hw'.append_ne_cons rfl)
    | quoted => exact absurd (List.cons.inj heq).1 (by decide)
    | between hl' =>
      obtain ⟨-, hbehind⟩ := ih hl' (List.cons.inj heq).2
      exact absurd (List.cons.inj hbehind).2.symm (binarySymbol_append_ne hop)
    | front hop' => exact absurd (List.cons.inj heq).2 (he.ne_front hop')
    | @behind op' e' t' rest' hop' he' =>
      obtain ⟨hform, hbehind⟩ := ih he' (List.cons.inj heq).2
      have hopen (op : UnaryOperator) : ∀ p ∈ spelling op.symbol, p ≠ .char ')' := by
        cases op <;> decide
      obtain ⟨hsymbol, hend⟩ := append_inj_of_run (p := (· ≠ .char ')'))
        (fun q hq => decide_eq_true (hopen op q hq))
        (fun q hq => decide_eq_true (hopen op' q hq)) rfl rfl (List.cons.inj hbehind).2
      obtain rfl := unarySymbol_injective (spelling_injective hsymbol)
      exact ⟨.un hform, (List.cons.inj hend).2⟩

/-- Expressions of the same form are written alike, whatever their types are. -/
theorem SameForm.eq_of_spelled (h : SameForm e e') (ht : Spelled e t rest)
    (ht' : Spelled e' t' rest) : t = t' := by
  induction h generalizing t t' rest with
  | col hindex =>
    cases ht with
    | word hw =>
      cases ht' with
      | word hw' =>
        cases hw
        cases hw'
        rw [hindex]
  | lit hvalue =>
    cases ht with
    | word hw =>
      cases ht' with
      | word hw' => cases hw <;> cases hw' <;> simp_all
      | quoted => cases hw <;> simp_all
    | quoted =>
      cases ht' with
      | word hw' => cases hw' <;> simp_all
      | quoted => simp_all
  | bin _ _ ihl ihr =>
    cases ht with
    | word hw => cases hw
    | between hl hr =>
      cases ht' with
      | word hw' => cases hw'
      | between hl' hr' =>
        obtain rfl := ihr hr hr'
        rw [ihl hl hl']
  | un _ ih =>
    cases ht with
    | word hw => cases hw
    | front hop he =>
      cases ht' with
      | word hw' => cases hw'
      | front _ he' => rw [ih he he']
      | behind hop' => exact nomatch hop.symm.trans hop'
    | behind hop he =>
      cases ht' with
      | word hw' => cases hw'
      | front hop' => exact nomatch hop.symm.trans hop'
      | behind _ he' => rw [ih he he']

/-- Readable expressions have the same SQL just if they have the same operators in the same places
over the same positions and values. -/
theorem sql_eq_iff_sameForm (h : e.isReadable) (h' : e'.isReadable) :
    e.sql = e'.sql ↔ SameForm e e' := by
  have ht : Spelled e (e.sql.points ++ []) [] := spelled_sql h rfl
  have ht' : Spelled e' (e'.sql.points ++ []) [] := spelled_sql h' rfl
  constructor
  · intro heq
    exact (ht.unique ht' (by rw [heq])).1
  · intro hform
    exact Text.points_injective (List.append_cancel_right (hform.eq_of_spelled ht ht'))

end Expr

/-- An expression where minus is a sign, a unary and a binary operator, with a string that looks
like operators. -/
def minusExpr (type : DataType) (nullable : Bool) : Expr :=
  .bin .subtract (.un .negate (.col ⟨-1, type, nullable, none⟩))
    (.bin .concat (.lit ⟨0, .int (-15), type⟩)
      (.un .isNotNull (.lit ⟨1, .str ") - (NOT $0", .text⟩)))

theorem minusExpr_sameForm :
    (minusExpr .integer true).isReadable ∧ (minusExpr .bigint false).isReadable ∧
      (minusExpr .integer true).sql = (minusExpr .bigint false).sql ∧
      Expr.SameForm (minusExpr .integer true) (minusExpr .bigint false) := by
  have hsql : (minusExpr .integer true).sql = (minusExpr .bigint false).sql := rfl
  exact ⟨rfl, rfl, hsql, (Expr.sql_eq_iff_sameForm rfl rfl).mp hsql⟩

end Semijoin
