import Semijoin.Proofs.Alphabet
import Semijoin.Proofs.Shortest

/-!
# Numerals that are read back

In every layout the text of a double reads as a numeral of the same value. What a layout does with
the digits is to place the point and to fill up with zeros, and neither changes the value.
-/

namespace Semijoin

/-! ## Runs of characters -/

section Span

variable {α : Type} {p : α → Bool} {run rest : List α}

theorem takeWhile_append_eq (hrun : ∀ x ∈ run, p x) (hrest : rest.head?.all (!p ·)) :
    (run ++ rest).takeWhile p = run := by
  rw [List.takeWhile_append_of_pos hrun]
  cases rest <;> simp_all

theorem dropWhile_append_eq (hrun : ∀ x ∈ run, p x) (hrest : rest.head?.all (!p ·)) :
    (run ++ rest).dropWhile p = rest := by
  rw [List.dropWhile_append_of_pos hrun]
  cases rest <;> simp_all

end Span

namespace Numeral

/-! ## Digits -/

/-- Only digits. -/
def Digits (cs : List Char) : Prop := ∀ c ∈ cs, c.isDigit

/-- The number that digits spell. -/
def spelled (ds : List Char) : Nat := Nat.ofDigitChars 10 ds 0

section Digits

variable {ds es rest : List Char}

@[simp] theorem digits_append : Digits (ds ++ es) ↔ Digits ds ∧ Digits es := by
  simp [Digits, or_imp, forall_and]

theorem digits_replicate (n : Nat) : Digits (List.replicate n '0') := fun _ hc =>
  List.eq_of_mem_replicate hc ▸ (by decide)

theorem digits_repr (n : Nat) : Digits (Nat.repr n).toList := fun _ hc =>
  Nat.isDigit_of_mem_toDigits (by decide) (by decide) (Nat.toList_repr ▸ hc)

theorem repr_ne_nil (n : Nat) : (Nat.repr n).toList ≠ [] := by
  rw [Nat.toList_repr]
  exact Nat.toDigits_ne_nil

@[simp] theorem spelled_repr (n : Nat) : spelled (Nat.repr n).toList = n := by
  rw [spelled, Nat.toList_repr, Nat.ofDigitChars_ten_toDigits]

@[simp] theorem spelled_nil : spelled [] = 0 := rfl

theorem spelled_append (ds es : List Char) :
    spelled (ds ++ es) = spelled ds * 10 ^ es.length + spelled es := by
  rw [spelled, Nat.ofDigitChars_append, Nat.ofDigitChars_eq_ofDigitChars_zero, mul_comm]
  rfl

/-- Zeros in front do not count. -/
@[simp] theorem spelled_replicate_append (n : Nat) (ds : List Char) :
    spelled (List.replicate n '0' ++ ds) = spelled ds := by
  rw [spelled, Nat.ofDigitChars_append, Nat.ofDigitChars_replicate_zero, mul_zero]
  rfl

@[simp] theorem spelled_zero_cons (ds : List Char) : spelled ('0' :: ds) = spelled ds :=
  spelled_replicate_append 1 ds

theorem spelled_append_replicate (ds : List Char) (n : Nat) :
    spelled (ds ++ List.replicate n '0') = spelled ds * 10 ^ n := by
  have hzeros : spelled (List.replicate n '0') = 0 := by
    rw [← List.append_nil (List.replicate n '0'), spelled_replicate_append, spelled_nil]
  rw [spelled_append, hzeros, List.length_replicate, add_zero]

theorem takeDigits_append (hds : Digits ds) (hrest : rest.head?.all (!·.isDigit)) :
    takeDigits (ds ++ rest) = (spelled ds, ds.length, rest) := by
  simp only [takeDigits, takeWhile_append_eq hds hrest, dropWhile_append_eq hds hrest, spelled,
    Nat.ofDigitChars_eq_foldl]

end Digits

/-! ## Reading -/

section Reading

variable {w f tail size : List Char} {e : Int}

theorem head?_of_readExponent? (h : readExponent? tail = some e) :
    tail.head?.all fun c => c = 'e' ∨ c = 'E' := by
  cases tail with
  | nil => rfl
  | cons c cs =>
    by_contra hhead
    have hc : c ≠ 'e' ∧ c ≠ 'E' := by simpa using hhead
    simp [readExponent?, hc] at h

theorem not_isDigit_of_readExponent? (h : readExponent? tail = some e) :
    tail.head?.all (!·.isDigit) := by
  have hhead := head?_of_readExponent? h
  cases tail with
  | nil => rfl
  | cons c cs =>
    obtain rfl | rfl : c = 'e' ∨ c = 'E' := by simpa using hhead
    · rfl
    · rfl

theorem readExponent?_signed (negative : Bool) (hsize : Digits size) (hne : size ≠ []) :
    readExponent? ('e' :: (if negative then '-' else '+') :: size) =
      some (if negative then -(spelled size : Int) else spelled size) := by
  have htake : takeDigits (size ++ []) = (spelled size, size.length, []) :=
    takeDigits_append hsize rfl
  rw [List.append_nil] at htake
  obtain ⟨n, hn⟩ := Nat.exists_eq_succ_of_ne_zero (mt List.length_eq_zero_iff.mp hne)
  cases negative <;> simp [readExponent?, htake, hn]

theorem ofChars?_whole (hw : Digits w) (hne : w ≠ []) (htail : readExponent? tail = some e) :
    ofChars? (w ++ tail) = some ⟨spelled w, e⟩ := by
  have hhead := head?_of_readExponent? htail
  have hlength : w.length ≠ 0 := mt List.length_eq_zero_iff.mp hne
  rw [ofChars?, takeDigits_append hw (not_isDigit_of_readExponent? htail)]
  cases tail with
  | nil =>
    obtain rfl : 0 = e := Option.some.inj htail
    simp [readExponent?, hlength]
  | cons c cs =>
    obtain rfl | rfl : c = 'e' ∨ c = 'E' := by simpa using hhead
    all_goals simp [htail, hlength]

theorem ofChars?_point (hw : Digits w) (hne : w ≠ []) (hf : Digits f)
    (htail : readExponent? tail = some e) :
    ofChars? (w ++ '.' :: (f ++ tail)) = some ⟨spelled (w ++ f), e - f.length⟩ := by
  have hlength : w.length + f.length ≠ 0 := fun h =>
    hne (List.length_eq_zero_iff.mp (Nat.eq_zero_of_add_eq_zero_right h))
  rw [ofChars?, takeDigits_append hw rfl]
  simp only [takeDigits_append hf (not_isDigit_of_readExponent? htail), if_neg hlength, htail,
    Option.map_some, spelled_append, Nat.pow_eq]

end Reading

/-! ## Written magnitudes -/

/-- What a number can go on with after its first digit. -/
def isPart (c : Char) : Bool := c.isDigit || "+-.eE".contains c

/-- The characters are the text of a number without a sign, which reads as a numeral. It starts with
a digit, so it cannot be taken for anything else. -/
structure Spells (cs : List Char) (d : Numeral) : Prop where
  head : cs.head?.any Char.isDigit
  parts : ∀ c ∈ cs, isPart c
  reads : ofChars? cs = some d

/-- The characters are the text of an exponent, or of none. -/
structure SpellsExponent (cs : List Char) (e : Int) : Prop where
  parts : ∀ c ∈ cs, isPart c
  reads : readExponent? cs = some e

section Spells

variable {w f tail : List Char} {e : Int}

theorem isPart_iff {c : Char} : isPart c ↔ c.isDigit ∨ c ∈ ['+', '-', '.', 'e', 'E'] := by
  simp [isPart]

theorem isPart_of_isDigit {c : Char} (h : c.isDigit) : isPart c := isPart_iff.mpr (.inl h)

theorem head?_append_of_digits (hw : Digits w) (hne : w ≠ []) (rest : List Char) :
    (w ++ rest).head?.any Char.isDigit := by
  cases w with
  | nil => exact absurd rfl hne
  | cons c cs => exact hw c (by simp)

theorem spells_whole (hw : Digits w) (hne : w ≠ []) (htail : SpellsExponent tail e) :
    Spells (w ++ tail) ⟨spelled w, e⟩ where
  head := head?_append_of_digits hw hne tail
  parts c hc := (List.mem_append.mp hc).elim (fun hc => isPart_of_isDigit (hw c hc)) (htail.parts c)
  reads := ofChars?_whole hw hne htail.reads

theorem spells_point (hw : Digits w) (hne : w ≠ []) (hf : Digits f)
    (htail : SpellsExponent tail e) :
    Spells (w ++ '.' :: (f ++ tail)) ⟨spelled (w ++ f), e - f.length⟩ where
  head := head?_append_of_digits hw hne _
  parts c hc := by
    simp only [List.mem_append, List.mem_cons] at hc
    obtain hc | rfl | hc | hc := hc
    · exact isPart_of_isDigit (hw c hc)
    · exact isPart_iff.mpr (by decide)
    · exact isPart_of_isDigit (hf c hc)
    · exact htail.parts c hc
  reads := ofChars?_point hw hne hf htail.reads

theorem spellsExponent_nil : SpellsExponent [] 0 := ⟨by simp, rfl⟩

theorem spells_repr (n : Nat) : Spells (Nat.repr n).toList ⟨n, 0⟩ := by
  have h := spells_whole (digits_repr n) (repr_ne_nil n) spellsExponent_nil
  rwa [List.append_nil, spelled_repr] at h

end Spells

/-- Powers of ten move between the digits and the exponent. -/
theorem value_mul_pow (n k : Nat) (e : Int) :
    (⟨n * 10 ^ k, e⟩ : Numeral).value = (⟨n, e + k⟩ : Numeral).value := by
  simp only [value_eq]
  rw [zpow_add₀ (by norm_num), zpow_natCast]
  push_cast
  ring

/-! ## Layouts -/

theorem toList_zeros (n : Nat) : (NumeralLayout.zeros n).toList = List.replicate n '0' := by
  rw [NumeralLayout.zeros, toList_pushn]
  rfl

/-- The string is the text of a number with a point or an exponent, and of the value of a numeral.
-/
def Shows (s : String) (d : Numeral) : Prop :=
  ∃ e, Spells s.toList e ∧ ¬ Digits s.toList ∧ e.value = d.value

theorem shows_of_point {s : String} {w f tail : List Char} {e : Int} {d : Numeral}
    (hs : s.toList = w ++ '.' :: (f ++ tail)) (hw : Digits w) (hne : w ≠ []) (hf : Digits f)
    (htail : SpellsExponent tail e)
    (hd : (⟨spelled (w ++ f), e - f.length⟩ : Numeral).value = d.value) : Shows s d := by
  refine ⟨_, hs ▸ spells_point hw hne hf htail, fun hdigits => ?_, hd⟩
  exact absurd (hdigits '.' (by rw [hs]; simp)) (by decide)

theorem shows_of_exponent {s : String} {w tail : List Char} {e : Int} {d : Numeral}
    (hs : s.toList = w ++ tail) (hw : Digits w) (hne : w ≠ []) (htail : SpellsExponent tail e)
    (htail0 : tail ≠ []) (hd : (⟨spelled w, e⟩ : Numeral).value = d.value) : Shows s d := by
  refine ⟨_, hs ▸ spells_whole hw hne htail, fun hdigits => ?_, hd⟩
  obtain ⟨c, cs, rfl⟩ := List.exists_cons_of_ne_nil htail0
  have hc : c.isDigit := hdigits c (by rw [hs]; simp)
  simpa [hc] using not_isDigit_of_readExponent? htail.reads

/-- The size of an exponent has two digits at least. -/
theorem spellsExponent_size (exponent : Int) {size : String}
    (hsize : size = "0" ++ Nat.repr exponent.natAbs ∨ size = Nat.repr exponent.natAbs) :
    SpellsExponent ("e" ++ (if exponent < 0 then "-" else "+") ++ size).toList exponent := by
  have hrepr := digits_repr exponent.natAbs
  obtain ⟨hds, hne, hspelled⟩ : Digits size.toList ∧ size.toList ≠ [] ∧
      spelled size.toList = exponent.natAbs := by
    obtain rfl | rfl := hsize
    · rw [String.toList_append]
      exact ⟨digits_append.mpr ⟨digits_replicate 1, hrepr⟩, by simp,
        (spelled_replicate_append 1 _).trans (spelled_repr _)⟩
    · exact ⟨hrepr, repr_ne_nil _, spelled_repr _⟩
  have htext : ("e" ++ (if exponent < 0 then "-" else "+") ++ size).toList =
      'e' :: (if exponent < 0 then '-' else '+') :: size.toList := by
    split_ifs <;> simp
  rw [htext]
  constructor
  · intro c hc
    simp only [List.mem_cons] at hc
    obtain rfl | rfl | hc := hc
    · exact isPart_iff.mpr (by decide)
    · split_ifs <;> exact isPart_iff.mpr (by decide)
    · exact isPart_of_isDigit (hds c hc)
  · have hread := readExponent?_signed (exponent < 0) hds hne
    simp only [decide_eq_true_eq, hspelled] at hread
    rw [hread]
    split_ifs <;> congr 1 <;> omega

section Shows

variable {ds : String} {exponent : Int}

/-- A number below one has its digits behind the point, after zeros. -/
theorem shows_small (hds : Digits ds.toList) (hexponent : exponent < 0) :
    Shows ("0." ++ NumeralLayout.zeros (-exponent - 1).toNat ++ ds)
      ⟨spelled ds.toList, exponent + 1 - ds.length⟩ := by
  have hlength : ds.toList.length = ds.length := String.length_toList
  refine shows_of_point (w := ['0']) (f := List.replicate (-exponent - 1).toNat '0' ++ ds.toList)
    (by simp [toList_zeros]) (digits_replicate 1) (by simp)
    (digits_append.mpr ⟨digits_replicate _, hds⟩) spellsExponent_nil ?_
  congr 2
  · simp
  · simp
    omega

/-- A number with more places than digits is filled up with zeros. -/
theorem shows_filled (hds : Digits ds.toList) (hne : ds.toList ≠ []) {places : Nat}
    (hplaces : ds.length ≤ places) :
    Shows (ds ++ NumeralLayout.zeros (places - ds.length) ++ ".0")
      ⟨spelled ds.toList, places - ds.length⟩ := by
  refine shows_of_point (w := ds.toList ++ List.replicate (places - ds.length) '0') (f := ['0'])
    (by simp [toList_zeros]) (digits_append.mpr ⟨hds, digits_replicate _⟩) (by simp [hne])
    (digits_replicate 1) spellsExponent_nil ?_
  rw [List.append_assoc, ← List.replicate_succ', spelled_append_replicate, value_mul_pow]
  congr 2
  simp
  omega

/-- A point among the digits is told by how many there are behind it. -/
theorem shows_split (hds : Digits ds.toList) (hne : ds.toList ≠ []) {places : Nat}
    (hplaces : 0 < places) (hlt : places < ds.length) {tail : String} {e : Int}
    (htail : SpellsExponent tail.toList e) :
    Shows ((ds.take places).toString ++ "." ++ (ds.drop places).toString ++ tail)
      ⟨spelled ds.toList, e + places - ds.length⟩ := by
  have hlength : ds.toList.length = ds.length := String.length_toList
  have hsplit : Digits (ds.toList.take places) ∧ Digits (ds.toList.drop places) := by
    rwa [← digits_append, List.take_append_drop]
  refine shows_of_point (w := ds.toList.take places) (f := ds.toList.drop places) (by simp)
    hsplit.1 (by simp [List.take_eq_nil_iff, hne, hplaces.ne']) hsplit.2 htail ?_
  rw [List.take_append_drop]
  congr 2
  simp
  omega

theorem shows_render (layout : NumeralLayout) (exponent : Int) (hds : Digits ds.toList)
    (hne : ds.toList ≠ []) :
    Shows (layout.render ds exponent) ⟨spelled ds.toList, exponent + 1 - ds.length⟩ := by
  have hlength : ds.toList.length = ds.length := String.length_toList
  have hpos : 0 < ds.toList.length := List.length_pos_iff.mpr hne
  unfold NumeralLayout.render
  by_cases hin : layout.least ≤ exponent ∧ exponent < layout.bound
  · simp only [if_pos hin]
    split_ifs with hneg hshort
    · exact shows_small hds hneg
    · have hplaces : exponent + 1 = (exponent.toNat + 1 : Nat) := by omega
      rw [hplaces]
      exact shows_filled hds hne hshort
    · have hplaces : exponent + 1 = 0 + (exponent.toNat + 1 : Nat) := by omega
      rw [hplaces]
      have hnone : SpellsExponent "".toList 0 := spellsExponent_nil
      simpa using shows_split hds hne (Nat.succ_pos _) (not_le.mp hshort) hnone
  · simp only [if_neg hin]
    have hsize := spellsExponent_size exponent
      (ite_eq_or_eq ((Nat.repr exponent.natAbs).length < 2) _ _)
    by_cases hone : ds.length ≤ 1
    · have hexponent : exponent + 1 - ds.length = exponent := by omega
      have hwhole : ds.toList.take 1 = ds.toList := List.take_of_length_le (by omega)
      rw [hexponent]
      refine shows_of_exponent ?_ hds hne hsize (by simp) rfl
      simp [hone, hwhole]
    · rw [if_neg hone]
      simpa [String.append_assoc] using shows_split hds hne one_pos (not_le.mp hone) hsize

end Shows

/-! ## The text of a double -/

theorem exists_toList_dropEndWhile (s : String) :
    ∃ n, s.toList = (s.dropEndWhile (· == '0')).toString.toList ++ List.replicate n '0' := by
  have hsplit : (s.dropEndWhile (· == '0')).copy ++ (s.takeEndWhile (· == '0')).copy = s :=
    String.dropEndWhile_append_takeEndWhile
  refine ⟨(s.takeEndWhile (· == '0')).copy.toList.length, ?_⟩
  have hzeros : (s.takeEndWhile (· == '0')).copy.toList.all (· == '0') := by
    have hall : (s.takeEndWhile (· == '0')).revAll (· == '0') := String.revAll_takeEndWhile
    rwa [String.Slice.revAll_bool_eq] at hall
  have hreplicate : (s.takeEndWhile (· == '0')).copy.toList =
      List.replicate (s.takeEndWhile (· == '0')).copy.toList.length '0' :=
    List.eq_replicate_iff.mpr ⟨rfl, fun c hc => eq_of_beq (List.all_eq_true.mp hzeros c hc)⟩
  rw [← hreplicate, ← String.toList_append]
  exact (congrArg String.toList hsplit).symm

/-- The text of a positive double reads as the double. -/
theorem exists_spells_positive (layout : NumeralLayout) {q : Rat} (hq0 : 0 < q)
    (hq : Binary64.ofRat q = .finite q) :
    ∃ d, Spells (layout.positive q).toList d ∧ ¬ Digits (layout.positive q).toList ∧
      d.toBinary64 = .finite q := by
  have hreads : Binary64.ofRat (shortest q).value = .finite q := reads_shortest hq0 hq
  set d := shortest q
  obtain ⟨n, hn⟩ := exists_toList_dropEndWhile (Nat.repr d.digits)
  set significant := ((Nat.repr d.digits).dropEndWhile (· == '0')).toString
  have hdigits : d.digits = spelled significant.toList * 10 ^ n := by
    rw [← spelled_append_replicate, ← hn, spelled_repr]
  have hlength : (Nat.repr d.digits).length = significant.length + n := by
    simpa only [List.length_append, List.length_replicate, String.length_toList] using
      congrArg List.length hn
  have hne : significant.toList ≠ [] := by
    intro hnil
    rw [hnil, spelled_nil, zero_mul] at hdigits
    have hzero : d.value = 0 := by rw [value_eq, hdigits, Nat.cast_zero, zero_mul]
    have hround : Binary64.roundValue d.value = 0 := by rw [hzero]; rfl
    exact hq0.ne (Binary64.finite.inj ((Binary64.ofRat_eq_zero hzero.ge hround).symm.trans hreads))
  have hsignificant : Digits significant.toList := by
    have := digits_repr d.digits
    rw [hn, digits_append] at this
    exact this.1
  obtain ⟨e, hspells, hpoint, hvalue⟩ :=
    shows_render layout (d.exponent + (Nat.repr d.digits).length - 1) hsignificant hne
  refine ⟨e, hspells, hpoint, ?_⟩
  -- the zeros that are left out at the end are in the exponent
  have hsame : e.value = d.value := by
    have hd : (⟨spelled significant.toList * 10 ^ n, d.exponent⟩ : Numeral).value = d.value := by
      rw [← hdigits]
    rw [hvalue, ← hd, value_mul_pow, hlength]
    congr 2
    push_cast
    ring
  rw [toBinary64_eq_ofRat, hsame, hreads]

end Numeral

end Semijoin
