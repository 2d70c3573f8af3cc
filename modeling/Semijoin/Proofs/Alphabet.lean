import Mathlib.Data.List.Basic
import Mathlib.Tactic.Common
import Semijoin.Value.Display

/-!
# Which characters a text consists of

What numbers, dates and other values look like in a message or in a JSON document, as far as the
characters go that can occur there. Numbers are plain ASCII, and no value shows a line break, except
text that stands for itself.
-/

namespace Semijoin

/-! ## Strings over an alphabet -/

theorem toList_pushn (s : String) (c : Char) (n : Nat) :
    (s.pushn c n).toList = s.toList ++ List.replicate n c := by
  rw [String.pushn_eq_repeat_push]
  induction n with
  | zero => simp [Nat.repeat]
  | succ n ih => rw [Nat.repeat, String.toList_push, ih, List.append_assoc, List.replicate_succ']

/-- All characters of a string are in an alphabet. -/
def Over (P : Char → Prop) (s : String) : Prop := ∀ c ∈ s.toList, P c

section Over

variable {P Q : Char → Prop} {s t : String}

theorem Over.mono (h : Over P s) (hPQ : ∀ c, P c → Q c) : Over Q s := fun c hc => hPQ c (h c hc)

@[simp] theorem over_append : Over P (s ++ t) ↔ Over P s ∧ Over P t := by
  simp [Over, or_imp, forall_and]

@[simp] theorem over_toString : Over P (toString s) ↔ Over P s := Iff.rfl

@[simp] theorem over_ofList {cs : List Char} : Over P (String.ofList cs) ↔ ∀ c ∈ cs, P c := by
  simp [Over]

theorem Over.take (h : Over P s) (n : Nat) : Over P (s.take n).toString := by
  intro c hc
  have hmem : c ∈ s.toList.take n := String.toList_copy_take ▸ hc
  exact h c (List.mem_of_mem_take hmem)

theorem Over.drop (h : Over P s) (n : Nat) : Over P (s.drop n).toString := by
  intro c hc
  have hmem : c ∈ s.toList.drop n := String.toList_copy_drop ▸ hc
  exact h c (List.mem_of_mem_drop hmem)

theorem Over.dropEndWhile (h : Over P s) (p : Char → Bool) :
    Over P (s.dropEndWhile p).toString := by
  have hsplit : (s.dropEndWhile p).copy ++ (s.takeEndWhile p).copy = s :=
    String.dropEndWhile_append_takeEndWhile
  rw [← hsplit, over_append] at h
  exact h.1

theorem Over.pushn {c : Char} (h : Over P s) (hc : P c) (n : Nat) : Over P (s.pushn c n) := by
  intro d hd
  rw [toList_pushn, List.mem_append, List.mem_replicate] at hd
  obtain hd | ⟨-, rfl⟩ := hd
  · exact h d hd
  · exact hc

theorem over_intercalate {ss : List String} (hs : Over P s) (h : ∀ t ∈ ss, Over P t) :
    Over P (s.intercalate ss) := by
  induction ss with
  | nil => simp [Over]
  | cons t ss ih =>
    cases ss with
    | nil => simpa using h
    | cons u ss =>
      rw [String.intercalate_cons_cons, over_append, over_append]
      exact ⟨⟨h t (by simp), hs⟩, ih fun v hv => h v (by simp [hv])⟩

end Over

/-- The characters of ASCII from the blank to the tilde. -/
def IsVisible (c : Char) : Prop := 0x20 ≤ c.toNat ∧ c.toNat < 0x7f

instance : DecidablePred IsVisible := fun _ => inferInstanceAs (Decidable (_ ∧ _))

/-- Visible strings are recognised by evaluation. -/
instance {P : Char → Prop} [DecidablePred P] (s : String) : Decidable (Over P s) :=
  List.decidableBAll P s.toList

theorem isVisible_of_isDigit {c : Char} (h : c.isDigit) : IsVisible c := by
  simp only [Char.isDigit, Bool.and_eq_true, decide_eq_true_eq, UInt32.le_iff_toNat_le] at h
  have hlow : 48 ≤ c.toNat := h.1
  have hhigh : c.toNat ≤ 57 := h.2
  constructor <;> omega

theorem over_repr (n : Nat) : Over IsVisible (Nat.repr n) := by
  intro c hc
  rw [Nat.repr, String.toList_ofList] at hc
  exact isVisible_of_isDigit (Nat.isDigit_of_mem_toDigits (by decide) (by decide) hc)

theorem over_toString_int (n : Int) : Over IsVisible (toString n) := by
  cases n with
  | ofNat m => exact over_repr m
  | negSucc m => exact over_append.mpr ⟨by decide, over_repr _⟩

theorem over_zeros (n : Nat) : Over IsVisible (NumeralLayout.zeros n) :=
  Over.pushn (by decide) (by decide) n

theorem over_render (layout : NumeralLayout) {ds : String} (h : Over IsVisible ds)
    (exponent : Int) : Over IsVisible (layout.render ds exponent) := by
  have hsize := over_repr exponent.natAbs
  unfold NumeralLayout.render
  dsimp only
  split_ifs <;> simp only [over_append, over_zeros, h, h.take, h.drop, hsize, true_and, and_true]
  all_goals decide

theorem over_positive (layout : NumeralLayout) (q : Rat) : Over IsVisible (layout.positive q) :=
  over_render layout ((over_repr _).dropEndWhile _) _

/-- The words of a layout are visible. -/
structure NumeralLayout.HasVisibleWords (layout : NumeralLayout) : Prop where
  nan : Over IsVisible layout.nan
  posInf : Over IsVisible layout.posInf
  negInf : Over IsVisible layout.negInf

theorem over_numeralText {layout : NumeralLayout} (h : layout.HasVisibleWords) (x : Binary64) :
    Over IsVisible (layout.text x) := by
  cases x with
  | nan => exact h.nan
  | posInf => exact h.posInf
  | negInf => exact h.negInf
  | negZero => exact (by decide : Over IsVisible "-0.0")
  | finite q =>
    simp only [NumeralLayout.text]
    split_ifs
    · decide
    · exact over_append.mpr ⟨by decide, over_positive layout _⟩
    · exact over_positive layout q

theorem NumeralLayout.plain_hasVisibleWords : NumeralLayout.plain.HasVisibleWords :=
  ⟨by decide, by decide, by decide⟩

theorem NumeralLayout.json_hasVisibleWords : NumeralLayout.json.HasVisibleWords :=
  ⟨by decide, by decide, by decide⟩

theorem isVisible_hexDigit (n : Nat) : IsVisible (hexDigit n) := by
  have h : ∀ m < 16, IsVisible ((Nat.toDigits 16 m).headD '0') := by decide
  exact h (n % 16) (Nat.mod_lt _ (by decide))

theorem isVisible_of_mem_hexDigits {width n : Nat} {c : Char} (h : c ∈ hexDigits width n) :
    IsVisible c := by
  induction width generalizing n with
  | zero => cases h
  | succ width ih =>
    obtain h | h := List.mem_append.mp h
    · exact ih h
    · exact List.mem_singleton.mp h ▸ isVisible_hexDigit n

/-! ## Strings without line breaks -/

/-- A string without a line break. -/
abbrev OneLine (s : String) : Prop := Over (· ≠ '\n') s

theorem IsVisible.ne_newline {c : Char} (h : IsVisible c) : c ≠ '\n' := by
  rintro rfl
  exact absurd h (by decide)

theorem Over.oneLine {s : String} (h : Over IsVisible s) : OneLine s :=
  h.mono fun _ => IsVisible.ne_newline

theorem ne_newline_of_mem_hexEscape {code : Nat} {c : Char} (h : c ∈ Quoted.hexEscape code) :
    c ≠ '\n' := by
  unfold Quoted.hexEscape at h
  split_ifs at h <;>
  · simp only [List.mem_cons] at h
    obtain rfl | rfl | h := h
    · decide
    · decide
    · exact (isVisible_of_mem_hexDigits h).ne_newline

theorem ne_newline_of_mem_escape {quote c d : Char} (hquote : quote ≠ '\n')
    (h : d ∈ Quoted.escape quote c) : d ≠ '\n' := by
  unfold Quoted.escape at h
  split_ifs at h with hquoted hbreak
  · have hc : c ≠ '\n' := by
      obtain rfl | rfl := hquoted
      · decide
      · exact hquote
    grind
  all_goals grind [ne_newline_of_mem_hexEscape]

theorem quoteFor_ne_newline (cs : List Char) : Quoted.quoteFor cs ≠ '\n' := by
  unfold Quoted.quoteFor
  split_ifs <;> decide

theorem oneLine_quoteText (t : Text) : OneLine (quoteText t) := by
  have hquote := quoteFor_ne_newline t.toChars
  simp only [OneLine, quoteText, over_ofList, Quoted.encode, List.mem_append, List.mem_cons,
    List.mem_flatMap, List.not_mem_nil, or_false]
  rintro c ((rfl | ⟨p, -, hc⟩) | rfl)
  · exact hquote
  · cases p with
    | char d => exact ne_newline_of_mem_escape hquote hc
    | surrogate i => exact ne_newline_of_mem_hexEscape hc
  · exact hquote

theorem oneLine_quoteBytes (bytes : List UInt8) : OneLine (quoteBytes bytes) := by
  have hquote := quoteFor_ne_newline (bytes.map fun b => Char.ofNat b.toNat)
  simp only [OneLine, quoteBytes, over_ofList, List.mem_append, List.mem_cons, List.mem_flatMap,
    List.not_mem_nil, or_false]
  rintro c ((rfl | rfl | ⟨d, -, hc⟩) | rfl)
  · decide
  · exact hquote
  · split_ifs at hc
    · exact ne_newline_of_mem_escape hquote hc
    · exact ne_newline_of_mem_hexEscape hc
  · exact hquote

theorem over_padded (width n : Nat) : Over IsVisible (padded width n) :=
  over_append.mpr ⟨Over.pushn (by decide) (by decide) _, over_repr n⟩

@[simp] theorem over_toString_nat (n : Nat) : Over IsVisible (toString n) := over_repr n

theorem over_isoText (d : Date) : Over IsVisible d.isoText := by
  simp only [Date.isoText, over_append, over_toString, over_padded, true_and, and_true]
  decide

theorem over_fractionText (n : Nat) : Over IsVisible (DateTime.fractionText n) := by
  unfold DateTime.fractionText
  split
  · decide
  · simp only [over_append, over_toString, over_padded, and_true]
    decide

theorem over_offsetText (offset : Option Int) : Over IsVisible (DateTime.offsetText offset) := by
  cases offset with
  | none => exact (by decide : Over IsVisible "")
  | some offset =>
    simp only [DateTime.offsetText, over_append, over_toString, over_padded, true_and, and_true]
    refine ⟨⟨?_, by decide⟩, ?_⟩
    · split <;> decide
    · split
      · decide
      · simp only [over_append, over_toString, over_padded, over_fractionText, and_true]
        decide

theorem over_isoText_dateTime {separator : String} (h : Over IsVisible separator) (t : DateTime) :
    Over IsVisible (t.isoText separator) := by
  simp only [DateTime.isoText, DateTime.timeText, over_append, over_toString, over_padded,
    over_isoText, over_fractionText, over_offsetText, h, true_and, and_true]
  decide

theorem over_durationText (n : Int) : Over IsVisible (durationText n) := by
  unfold durationText
  generalize hpart :
    (fun (name : String) (n : Int) => if n = 0 then [] else [s!"{name}={n}"]) = part
  have over_part {name t : String} {m : Int} (hname : Over IsVisible name) (ht : t ∈ part name m) :
      Over IsVisible t := by
    subst hpart
    dsimp only at ht
    split_ifs at ht
    · cases ht
    · obtain rfl := List.mem_singleton.mp ht
      simp only [over_append, over_toString, over_toString_int, hname, true_and, and_true]
      decide
  dsimp only
  rw [over_append, over_append]
  refine ⟨⟨by decide +kernel, ?_⟩, by decide⟩
  split_ifs
  · decide
  · refine over_intercalate (by decide) fun t ht => ?_
    simp only [List.mem_append] at ht
    obtain (ht | ht) | ht := ht
    · exact over_part (by decide) ht
    · exact over_part (by decide) ht
    · exact over_part (by decide) ht

theorem over_sourceText (d : Date) : Over IsVisible d.sourceText := by
  unfold Date.sourceText
  simp only [over_append]
  exact ⟨⟨⟨⟨⟨⟨by decide +kernel, over_toString_int _⟩, by decide⟩, over_repr _⟩, by decide⟩,
    over_repr _⟩, by decide⟩

theorem over_sourceText_dateTime (t : DateTime) : Over IsVisible t.sourceText := by
  unfold DateTime.sourceText
  dsimp only
  simp only [over_append]
  refine ⟨⟨⟨by decide +kernel, over_intercalate (by decide) ?_⟩, ?_⟩, by decide⟩
  · intro u hu
    obtain hu | hu := List.mem_append.mp hu
    · simp only [List.mem_cons, List.not_mem_nil, or_false] at hu
      obtain rfl | rfl | rfl := hu
      · exact over_toString_int _
      · exact over_repr _
      · exact over_repr _
    · obtain ⟨n, -, rfl⟩ := List.mem_map.mp hu
      exact over_repr n
  · split
    · decide
    · decide +kernel
    · simp only [over_append, over_durationText, and_true]
      decide +kernel

theorem over_exactText (d : Numeral) : Over IsVisible d.exactText := by
  have hdigits := over_repr d.digits
  have hpadded (n : Nat) : Over IsVisible ("".pushn '0' n ++ Nat.repr d.digits) :=
    over_append.mpr ⟨over_zeros n, hdigits⟩
  unfold Numeral.exactText
  dsimp only
  split
  · split
    · exact (hpadded _).take _
    · exact over_append.mpr ⟨over_append.mpr ⟨(hpadded _).take _, by decide⟩, (hpadded _).drop _⟩
  · simp only [over_append, hdigits.take, over_repr, and_true, true_and]
    refine ⟨⟨?_, by decide⟩, ?_⟩
    · split
      · decide
      · exact over_append.mpr ⟨by decide, hdigits.drop _⟩
    · split <;> decide

theorem over_signText (negative : Bool) : Over IsVisible (Decimal.signText negative) := by
  cases negative <;> decide

theorem over_decimalText (d : Decimal) : Over IsVisible d.text := by
  cases d with
  | finite negative d => exact over_append.mpr ⟨over_signText _, over_exactText d⟩
  | infinite negative => exact over_append.mpr ⟨over_signText _, by decide⟩
  | nan negative signaling payload =>
    simp only [Decimal.text, over_append, over_signText, true_and]
    constructor
    · cases signaling <;> decide
    · split
      · decide
      · exact over_repr payload

theorem over_fractionText_rat (q : Rat) : Over IsVisible (Value.fractionText q) := by
  unfold Value.fractionText
  split
  · exact over_toString_int _
  · simp only [over_append, over_toString, over_toString_int, over_toString_nat, true_and, and_true]
    decide

/-! ## Values -/

namespace Value

mutual

/-- The text that shows what kind of value it is never has a line break, whatever text is in it. -/
theorem oneLine_quoted : (x : Value) → OneLine x.quoted
  | null => by decide
  | bool b => by cases b <;> decide
  | int n => (over_toString_int n).oneLine
  | float x => (over_numeralText NumeralLayout.plain_hasVisibleWords x).oneLine
  | decimal d => by
    simp only [quoted, OneLine, over_append]
    exact ⟨⟨by decide, (over_decimalText d).oneLine⟩, by decide⟩
  | fraction q => by
    simp only [quoted, OneLine, over_append]
    exact ⟨⟨⟨⟨by decide, (over_toString_int q.num).oneLine⟩, by decide⟩,
      (over_repr q.den).oneLine⟩, by decide⟩
  | date d => (over_sourceText d).oneLine
  | datetime t => (over_sourceText_dateTime t).oneLine
  | str s => oneLine_quoteText s
  | bytes bs => oneLine_quoteBytes bs
  | list xs => by
    simp only [quoted, OneLine, over_append]
    exact ⟨⟨by decide, over_intercalate (by decide) (oneLine_quotedList xs)⟩, by decide⟩
  | tuple xs => by
    simp only [quoted, OneLine, over_append]
    refine ⟨⟨by decide, over_intercalate (by decide) (oneLine_quotedList xs)⟩, ?_⟩
    split <;> decide
  | set xs => by
    simp only [quoted]
    split
    · decide
    · simp only [OneLine, over_append]
      exact ⟨⟨by decide, over_intercalate (by decide) (oneLine_quotedList xs)⟩, by decide⟩
  | map entries => by
    simp only [quoted, OneLine, over_append]
    exact ⟨⟨by decide, over_intercalate (by decide) (oneLine_quotedEntries entries)⟩, by decide⟩
  | again isMap => by cases isMap <;> decide

theorem oneLine_quotedList : (xs : List Value) → ∀ s ∈ quotedList xs, OneLine s
  | [] => by simp [quotedList]
  | x :: xs => by
    intro s hs
    obtain rfl | hs := List.mem_cons.mp hs
    · exact oneLine_quoted x
    · exact oneLine_quotedList xs s hs

theorem oneLine_quotedEntries :
    (entries : List (Value × Value)) → ∀ s ∈ quotedEntries entries, OneLine s
  | [] => by simp [quotedEntries]
  | (key, value) :: entries => by
    intro s hs
    obtain rfl | hs := List.mem_cons.mp hs
    · simp only [OneLine, over_append]
      exact ⟨⟨oneLine_quoted key, by decide⟩, oneLine_quoted value⟩
    · exact oneLine_quotedEntries entries s hs

end

end Value

end Semijoin
