import Semijoin.Proofs.NumeralText
import Semijoin.Text.Json.Document

/-!
# JSON strings and numbers that are read back

A string in a document is read back as what it was written from, except that surrogates that make up
a pair become the one character that they stand for. Words and numbers are read back as they are.
-/

namespace Semijoin

open Json

/-- The text with one character for every two surrogates that are a pair. -/
def Text.joined (t : Text) : Text := ⟨t.points.foldr prepend []⟩

namespace Json

/-! ## Strings -/

theorem digit?_hexDigit (n : Nat) : Hexadecimal.digit? (hexDigit n) = some (n % 16) := by
  have h : ∀ m < 16, Hexadecimal.digit? ((Nat.toDigits 16 m).headD '0') = some m := by decide
  exact h (n % 16) (Nat.mod_lt _ (by decide))

theorem unit?_hexDigits (width n : Nat) : unit? (hexDigits width n) = some (n % 16 ^ width) := by
  induction width generalizing n with
  | zero => simp [hexDigits, unit?, Nat.mod_one]
  | succ width ih =>
    have hrest := ih (n / 16)
    simp only [unit?, Option.map_eq_some_iff] at hrest ⊢
    obtain ⟨ns, hns, hvalue⟩ := hrest
    refine ⟨ns ++ [n % 16], by simp [hexDigits, List.mapM_append, hns, digit?_hexDigit], ?_⟩
    rw [List.foldl_append, hvalue, List.foldl_cons, List.foldl_nil, pow_succ', Nat.mod_mul]
    ring

/-- What code points are written as between quotes: each as itself, by a letter behind a backslash
or by its number in hexadecimal. -/
inductive Written : List Char → List CodePoint → Prop
  | nil : Written [] []
  | plain {c : Char} {cs ps} (hc : IsVisible c) (hquote : c ≠ '"') (hbackslash : c ≠ '\\')
      (h : Written cs ps) : Written (c :: cs) (.char c :: ps)
  | short {letter c : Char} {cs ps} (hc : shortEscape? letter = some c) (h : Written cs ps) :
      Written ('\\' :: letter :: cs) (.char c :: ps)
  | unit {n : Nat} {p : CodePoint} {cs ps} (hp : CodePoint.ofNat? n = some p) (hn : n < 0x10000)
      (h : Written cs ps) : Written (unitEscape n ++ cs) (p :: ps)

namespace Written

variable {cs ds rest : List Char} {ps qs : List CodePoint}

theorem append (h : Written cs ps) (h' : Written ds qs) : Written (cs ++ ds) (ps ++ qs) := by
  induction h with
  | nil => exact h'
  | plain hc hquote hbackslash _ ih => exact .plain hc hquote hbackslash ih
  | short hc _ ih => exact .short hc ih
  | unit hp hn _ ih =>
    rw [List.append_assoc]
    exact .unit hp hn ih

theorem isVisible_of_shortEscape? {letter c : Char} (h : shortEscape? letter = some c) :
    IsVisible letter ∧ letter ≠ 'u' := by
  obtain ⟨before, after, heq, -⟩ := List.lookup_eq_some_iff.mp h
  have hall : ∀ e ∈ before ++ (letter, c) :: after, IsVisible e.1 ∧ e.1 ≠ 'u' := by
    rw [← heq]
    decide
  exact hall (letter, c) (by simp)

theorem ne_of_mem_hexDigits {width n : Nat} {c : Char} (h : c ∈ hexDigits width n) :
    c ≠ '"' ∧ c ≠ '\\' := by
  induction width generalizing n with
  | zero => cases h
  | succ width ih =>
    obtain h | h := List.mem_append.mp h
    · exact ih h
    · have hdigit : ∀ m < 16, (Nat.toDigits 16 m).headD '0' ≠ '"' ∧
          (Nat.toDigits 16 m).headD '0' ≠ '\\' := by decide
      exact List.mem_singleton.mp h ▸ hdigit (n % 16) (Nat.mod_lt _ (by decide))

theorem isVisible (h : Written cs ps) : ∀ c ∈ cs, IsVisible c := by
  induction h with
  | nil => simp
  | plain hc _ _ _ ih => simpa [hc] using ih
  | short hc _ ih =>
    simpa [isVisible_of_shortEscape? hc, (by decide : IsVisible '\\')] using ih
  | unit _ _ _ ih =>
    intro c hc
    simp only [unitEscape, List.cons_append, List.mem_cons, List.mem_append] at hc
    obtain rfl | rfl | hc | hc := hc
    · decide
    · decide
    · exact isVisible_of_mem_hexDigits hc
    · exact ih c hc

theorem splitString?_cons {before : List Char} {c : Char} (hquote : c ≠ '"')
    (hbackslash : c ≠ '\\') :
    splitString? before (c :: cs) = splitString? (c :: before) cs := by
  rw [splitString?]
  · exact hquote
  · exact fun _ _ h _ => hbackslash h

theorem splitString?_run {before run : List Char} (hrun : ∀ c ∈ run, c ≠ '"' ∧ c ≠ '\\') :
    splitString? before (run ++ rest) = splitString? (run.reverse ++ before) rest := by
  induction run generalizing before with
  | nil => rfl
  | cons c run ih =>
    have hc := hrun c (by simp)
    rw [List.cons_append, splitString?_cons hc.1 hc.2, ih fun d hd => hrun d (by simp [hd])]
    simp

theorem splitString?_append (h : Written cs ps) (before : List Char) :
    splitString? before (cs ++ rest) = splitString? (cs.reverse ++ before) rest := by
  induction h generalizing before with
  | nil => rfl
  | plain _ hquote hbackslash _ ih =>
    rw [List.cons_append, splitString?_cons hquote hbackslash, ih]
    simp
  | short _ _ ih =>
    rw [List.cons_append, List.cons_append, splitString?, ih]
    simp
  | unit _ _ _ ih =>
    rw [unitEscape, List.cons_append, List.cons_append, List.cons_append, List.cons_append,
      splitString?, List.append_assoc, splitString?_run fun _ => ne_of_mem_hexDigits, ih]
    simp

theorem points?_unitEscape {before : List CodePoint} {n : Nat} (hn : n < 0x10000) {p : CodePoint}
    (hp : CodePoint.ofNat? n = some p) :
    points? before (unitEscape n ++ cs) = points? (p :: before) cs := by
  obtain ⟨a, b, c, d, hdigits⟩ : ∃ a b c d, hexDigits 4 n = [a, b, c, d] := ⟨_, _, _, _, rfl⟩
  have hunit : unit? [a, b, c, d] = some n := by
    rw [← hdigits, unit?_hexDigits, Nat.mod_eq_of_lt (show n < 16 ^ 4 from hn)]
  simp [unitEscape, hdigits, points?, hunit, hp]

theorem points?_eq (h : Written cs ps) (before : List CodePoint) :
    points? before cs = some (before.reverse ++ ps) := by
  induction h generalizing before with
  | nil => simp [points?]
  | plain _ _ hbackslash _ ih =>
    rw [points?, ih]
    · simp
    · exact fun _ _ _ _ _ h _ => hbackslash h
    · exact fun _ _ h _ => hbackslash h
  | short hc _ ih =>
    rw [points?]
    · simp only [hc, ih]
      simp
    · exact fun _ _ _ _ _ h _ => (isVisible_of_shortEscape? hc).2 h
  | unit hp hn _ ih =>
    rw [points?_unitEscape hn hp, ih]
    simp

end Written

/-- The surrogate with an index. There are no more than the remainder can tell. -/
def surrogate (n : Nat) : CodePoint := .surrogate ⟨n % 2048, Nat.mod_lt n (by decide)⟩

theorem code_surrogate {n : Nat} (hn : n < 2048) : (surrogate n).code = 0xd800 + n := by
  simp only [surrogate, CodePoint.code, Nat.mod_eq_of_lt hn]

/-- The code points that are written for one: a character that is no single UTF-16 unit is written
as the surrogates of its units. -/
def units : CodePoint → List CodePoint
  | .char c =>
    if c.toNat < 0x10000 then [.char c]
    else
      let rest := c.toNat - 0x10000
      [surrogate (rest / 0x400), surrogate (0x400 + rest % 0x400)]
  | p => [p]

theorem units_of_lt {c : Char} (h : c.toNat < 0x10000) : units (.char c) = [.char c] := if_pos h

theorem toNat_lt_or (c : Char) : c.toNat < 0xd800 ∨ (0xe000 ≤ c.toNat ∧ c.toNat < 0x110000) :=
  c.valid

theorem ofNat?_toNat (c : Char) : CodePoint.ofNat? c.toNat = some (.char c) := by
  have hvalid := toNat_lt_or c
  rw [CodePoint.ofNat?, if_neg (by omega), if_pos (by omega), Char.ofNat_toNat]

theorem ofNat?_surrogate {n : Nat} (hn : n < 2048) :
    CodePoint.ofNat? (0xd800 + n) = some (surrogate n) := by
  rw [CodePoint.ofNat?, if_pos (by omega), Nat.add_sub_cancel_left]
  rfl

theorem written_unit {n : Nat} {p : CodePoint} (hp : CodePoint.ofNat? n = some p)
    (hn : n < 0x10000) : Written (unitEscape n) [p] := by
  simpa using Written.unit hp hn .nil

theorem written_unitEscapes (c : Char) : Written (unitEscapes c.toNat) (units (.char c)) := by
  have hvalid := toNat_lt_or c
  unfold unitEscapes units
  dsimp only
  split_ifs with hn
  · exact written_unit (ofNat?_toNat c) hn
  · have hhigh : (c.toNat - 0x10000) / 0x400 < 0x400 := by omega
    have hlow : 0x400 + (c.toNat - 0x10000) % 0x400 < 2048 := by omega
    have hsecond := ofNat?_surrogate hlow
    rw [← Nat.add_assoc] at hsecond
    exact (written_unit (ofNat?_surrogate (by omega)) (by omega)).append
      (written_unit hsecond (by omega))

theorem written_short {c letter : Char} (h : shortEscape? letter = some c)
    (hc : c.toNat < 0x10000) : Written ['\\', letter] (units (.char c)) :=
  units_of_lt hc ▸ .short h .nil

theorem written_escape (c : Char) : Written (escape c) (units (.char c)) := by
  unfold escape
  split_ifs with hquoted hn hr ht hb hf hvisible
  · obtain rfl | rfl := hquoted
    · exact written_short (by decide) (by decide)
    · exact written_short (by decide) (by decide)
  · exact hn ▸ written_short (by decide) (by decide)
  · exact hr ▸ written_short (by decide) (by decide)
  · exact ht ▸ written_short (by decide) (by decide)
  · obtain rfl : c = '\x08' := Char.toNat_inj.mp hb
    exact written_short (by decide) (by decide)
  · obtain rfl : c = '\x0c' := Char.toNat_inj.mp hf
    exact written_short (by decide) (by decide)
  · rw [units_of_lt (by omega)]
    exact .plain hvisible (fun h => hquoted (.inl h)) (fun h => hquoted (.inr h)) .nil
  · exact written_unitEscapes c

theorem written_escapePoint (p : CodePoint) : Written (escapePoint p) (units p) := by
  cases p with
  | char c => exact written_escape c
  | surrogate i =>
    have hcode : CodePoint.ofNat? (CodePoint.surrogate i).code = some (.surrogate i) := by
      rw [CodePoint.code, ofNat?_surrogate i.isLt, surrogate]
      simp only [Nat.mod_eq_of_lt i.isLt]
    have hlt : 0xd800 + i.val < 0x10000 := by omega
    exact written_unit hcode hlt

theorem prepend_eq_cons {p : CodePoint} (h : p.code < 0xd800 ∨ 0xdc00 ≤ p.code)
    (ps : List CodePoint) : prepend p ps = p :: ps := by
  cases ps with
  | nil => rfl
  | cons q rest => exact if_neg (by omega)

theorem prepend_pair {p q : CodePoint} {high low : Nat} (hp : p.code = 0xd800 + high)
    (hq : q.code = 0xdc00 + low) (hhigh : high < 0x400) (hlow : low < 0x400) (ps : List CodePoint) :
    prepend p (q :: ps) = .char (Char.ofNat (0x10000 + high * 0x400 + low)) :: ps := by
  have hpair : 0xd800 ≤ p.code ∧ p.code < 0xdc00 ∧ 0xdc00 ≤ q.code ∧ q.code < 0xe000 := by omega
  rw [prepend, if_pos hpair, hp, hq, Nat.add_sub_cancel_left, Nat.add_sub_cancel_left]

/-- The surrogates of a character are a pair that stands for it. -/
theorem foldr_prepend_units (p : CodePoint) (ps : List CodePoint) :
    (units p).foldr prepend ps = prepend p ps := by
  cases p with
  | surrogate i => rfl
  | char c =>
    dsimp only [units]
    split_ifs with hn
    · rfl
    · have hvalid := toNat_lt_or c
      set n := c.toNat - 0x10000 with hc
      have hhigh : (surrogate (n / 0x400)).code = 0xd800 + n / 0x400 :=
        code_surrogate (by omega)
      have hlow : (surrogate (0x400 + n % 0x400)).code = 0xdc00 + n % 0x400 :=
        (code_surrogate (by omega)).trans (Nat.add_assoc _ _ _).symm
      have hsum : 0x10000 + n / 0x400 * 0x400 + n % 0x400 = c.toNat := by omega
      have hchar : 0xdc00 ≤ (CodePoint.char c).code := by
        simp only [CodePoint.code]
        omega
      have hcons := prepend_eq_cons (.inr (hlow.symm.le.trans' (Nat.le_add_right _ _))) ps
      rw [List.foldr_cons, List.foldr_cons, List.foldr_nil, prepend_eq_cons (.inr hchar), hcons,
        prepend_pair hhigh hlow (by omega) (by omega), hsum, Char.ofNat_toNat]

theorem written_flatMap (ps : List CodePoint) :
    Written (ps.flatMap escapePoint) (ps.flatMap units) := by
  induction ps with
  | nil => exact .nil
  | cons p ps ih => exact (written_escapePoint p).append ih

theorem foldr_prepend_flatMap (ps : List CodePoint) :
    (ps.flatMap units).foldr prepend [] = ps.foldr prepend [] := by
  induction ps with
  | nil => rfl
  | cons p ps ih =>
    rw [List.flatMap_cons, List.foldr_append, ih, foldr_prepend_units, List.foldr_cons]

theorem takeString?_flatMap (t : Text) (rest : List Char) :
    takeString? (t.points.flatMap escapePoint ++ '"' :: rest) = some (t.joined, rest) := by
  have hwritten := written_flatMap t.points
  simp [takeString?, hwritten.splitString?_append, splitString?, hwritten.points?_eq,
    foldr_prepend_flatMap, Text.joined]

theorem over_quote (t : Text) : Over IsVisible (quote t) := by
  have hwritten := written_flatMap t.points
  rw [quote, over_ofList]
  intro c hc
  simp only [List.cons_append, List.mem_cons, List.mem_append, List.not_mem_nil, or_false] at hc
  obtain rfl | hc | rfl := hc
  · decide
  · exact hwritten.isVisible c hc
  · decide

/-! ## Words and numbers -/

section Scalar

open Numeral

variable {cs rest : List Char} {d : Numeral}

/-- Behind these characters a number is at an end. -/
def Ends (rest : List Char) : Prop := rest.head?.all (!isPart ·)

/-- What no word and no number starts with: a blank, the start of any other document and the end of
an array. -/
def delimiters : List Char := [' ', '\t', '\n', '\r', '"', '[', ']', '\x7b']

/-- The characters are the text of a word or a number. -/
structure ScalarText (cs : List Char) (d : Document) : Prop where
  head : cs.head?.any (· ∉ delimiters)
  reads : ∀ rest, Ends rest → takeScalar? (cs ++ rest) = some (d, rest)

theorem scalarText_of_mem_words {word : String} {d : Document} (h : (word, d) ∈ words) :
    ScalarText word.toList d := by
  simp only [words, List.mem_cons, Prod.mk.injEq, List.not_mem_nil, or_false] at h
  obtain ⟨rfl, rfl⟩ | ⟨rfl, rfl⟩ | ⟨rfl, rfl⟩ | ⟨rfl, rfl⟩ | ⟨rfl, rfl⟩ | ⟨rfl, rfl⟩ := h
  all_goals exact ⟨by decide, fun rest _ => rfl⟩

/-- A word has two characters at least, and none of them is a digit. -/
theorem find?_words_eq_none {sign : List Char} (hsign : sign.length ≤ 1) {c : Char}
    (hc : c.isDigit) (cs : List Char) :
    (words.find? fun (word, _) => word.toList.isPrefixOf (sign ++ c :: cs)) = none := by
  have hwords : ∀ e ∈ words, 2 ≤ e.1.toList.length ∧ e.1.toList.all (!·.isDigit) := by
    simp only [words, List.forall_mem_cons]
    decide
  refine List.find?_eq_none.mpr fun e he hprefix => ?_
  obtain ⟨hlength, hdigits⟩ := hwords e he
  have hlt : sign.length < e.1.toList.length := by omega
  have hget := (List.isPrefixOf_iff_prefix.mp hprefix).getElem hlt
  rw [List.getElem_append_right le_rfl] at hget
  simp only [Nat.sub_self, List.getElem_cons_zero] at hget
  have hmem : c ∈ e.1.toList := hget ▸ List.getElem_mem hlt
  simpa [hc] using List.all_eq_true.mp hdigits c hmem

theorem takeScalar?_eq_takeNumber? (sign : List Char) (hsign : sign.length ≤ 1)
    (h : Spells cs d) :
    takeScalar? (sign ++ (cs ++ rest)) = takeNumber? (sign ++ (cs ++ rest)) := by
  have hhead := h.head
  cases cs with
  | nil => cases hhead
  | cons c cs => rw [takeScalar?, List.cons_append, find?_words_eq_none hsign hhead]

/-- A number reads as an integer if it has digits only. -/
theorem takeNumber?_spells (h : Spells cs d) (hrest : Ends rest) :
    takeNumber? (cs ++ rest) =
      some (if cs.all Char.isDigit then .int d.digits else .float d.toBinary64, rest) := by
  have htake : (cs ++ rest).takeWhile (fun c => c.isDigit || "+-.eE".contains c) = cs :=
    takeWhile_append_eq h.parts hrest
  have hdrop : (cs ++ rest).dropWhile (fun c => c.isDigit || "+-.eE".contains c) = rest :=
    dropWhile_append_eq h.parts hrest
  have hhead := h.head
  simp only [takeNumber?, htake, hdrop]
  split
  · cases hhead
  · simp [h.reads]

theorem takeNumber?_minus (h : Spells cs d) (hrest : Ends rest) :
    takeNumber? ('-' :: (cs ++ rest)) =
      some (if cs.all Char.isDigit then .int (-d.digits) else .float d.toBinary64.neg, rest) := by
  have hparts : ∀ c ∈ '-' :: cs, isPart c :=
    List.forall_mem_cons.mpr ⟨isPart_iff.mpr (by decide), h.parts⟩
  have htake : ('-' :: (cs ++ rest)).takeWhile (fun c => c.isDigit || "+-.eE".contains c) =
      '-' :: cs := takeWhile_append_eq hparts hrest
  have hdrop : ('-' :: (cs ++ rest)).dropWhile (fun c => c.isDigit || "+-.eE".contains c) = rest :=
    dropWhile_append_eq hparts hrest
  simp only [takeNumber?, htake, hdrop]
  simp [h.reads]

/-- What is read of a number with or without a sign. -/
theorem scalarText_of_spells (h : Spells cs d) :
    ScalarText cs (if cs.all Char.isDigit then .int d.digits else .float d.toBinary64) where
  head := by
    have hhead := h.head
    cases cs with
    | nil => cases hhead
    | cons c cs =>
      have hdelimiters : delimiters.all (!·.isDigit) := by decide
      refine decide_eq_true fun hc => ?_
      simpa [show c.isDigit from hhead] using List.all_eq_true.mp hdelimiters c hc
  reads _ hrest :=
    (takeScalar?_eq_takeNumber? [] (Nat.zero_le 1) h).trans (takeNumber?_spells h hrest)

theorem scalarText_of_spells_minus (h : Spells cs d) :
    ScalarText ('-' :: cs)
      (if cs.all Char.isDigit then .int (-d.digits) else .float d.toBinary64.neg) where
  head := rfl
  reads _ hrest := (takeScalar?_eq_takeNumber? ['-'] le_rfl h).trans (takeNumber?_minus h hrest)

theorem scalarText_int (n : Int) : ScalarText (toString n).toList (.int n) := by
  have hall (m : Nat) : (Nat.repr m).toList.all Char.isDigit := List.all_eq_true.mpr (digits_repr m)
  cases n with
  | ofNat m =>
    have h := scalarText_of_spells (spells_repr m)
    rwa [if_pos (hall m)] at h
  | negSucc m =>
    have h := scalarText_of_spells_minus (spells_repr (m + 1))
    rw [if_pos (hall (m + 1))] at h
    have htext : (toString (Int.negSucc m)).toList = '-' :: (Nat.repr (m + 1)).toList :=
      String.toList_append
    rw [htext]
    exact h

theorem spells_zero : Spells "0.0".toList ⟨0, -1⟩ :=
  spells_point (w := ['0']) (f := ['0']) (digits_replicate 1) (by simp) (digits_replicate 1)
    spellsExponent_nil

theorem scalarText_float {x : Binary64} (hx : x.IsDouble) :
    ScalarText (NumeralLayout.json.text x).toList (.float x) := by
  have hnan : ("NaN", Document.float .nan) ∈ words := by simp [words]
  have hposInf : ("Infinity", Document.float .posInf) ∈ words := by simp [words]
  have hnegInf : ("-Infinity", Document.float .negInf) ∈ words := by simp [words]
  cases x with
  | nan => exact scalarText_of_mem_words hnan
  | posInf => exact scalarText_of_mem_words hposInf
  | negInf => exact scalarText_of_mem_words hnegInf
  | negZero => exact scalarText_of_spells_minus spells_zero
  | finite q =>
    simp only [NumeralLayout.text]
    split_ifs with hzero hneg
    · exact hzero ▸ scalarText_of_spells spells_zero
    · obtain ⟨d, hspells, hpoint, hd⟩ := exists_spells_positive .json (neg_pos.mpr hneg)
        (Binary64.ofRat_neg hneg (hx q rfl))
      have h := scalarText_of_spells_minus hspells
      rw [if_neg fun hall => hpoint (List.all_eq_true.mp hall), hd, Binary64.neg,
        if_neg (neg_ne_zero.mpr hzero), neg_neg] at h
      rwa [String.toList_append]
    · obtain ⟨d, hspells, hpoint, hd⟩ := exists_spells_positive .json
        ((not_lt.mp hneg).lt_of_ne (Ne.symm hzero)) (hx q rfl)
      have h := scalarText_of_spells hspells
      rwa [if_neg fun hall => hpoint (List.all_eq_true.mp hall), hd] at h

end Scalar

end Json

end Semijoin
