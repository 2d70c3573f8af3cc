import Semijoin.Proofs.JsonScalar

/-!
# JSON documents that are read back

A document on one line consists of visible characters, and is read back as what it was written from,
up to surrogates that are pairs. All of its text is read: what follows a part ends the number that
the part may end with, and there is fuel for every part.
-/

namespace Semijoin

namespace Json

namespace Document

mutual

/-- Every number in a document is one that there is. -/
def WellFormed : Document → Prop
  | float x => x.IsDouble
  | arr items => AllWellFormed items
  | obj fields => FieldsWellFormed fields
  | _ => True

def AllWellFormed : List Document → Prop
  | [] => True
  | d :: ds => d.WellFormed ∧ AllWellFormed ds

def FieldsWellFormed : List (Text × Document) → Prop
  | [] => True
  | (_, d) :: fields => d.WellFormed ∧ FieldsWellFormed fields

end

mutual

/-- The document with one character for every two surrogates that are a pair. -/
def joined : Document → Document
  | str t => str t.joined
  | arr items => arr (allJoined items)
  | obj fields => obj (fieldsJoined fields)
  | d => d

def allJoined : List Document → List Document
  | [] => []
  | d :: ds => d.joined :: allJoined ds

def fieldsJoined : List (Text × Document) → List (Text × Document)
  | [] => []
  | (name, d) :: fields => (name.joined, d.joined) :: fieldsJoined fields

end

section FieldsJoined

variable {fields : List (Text × Document)} {name : Text}

end FieldsJoined

mutual

theorem over_text : (d : Document) → Over IsVisible d.text
  | null => by decide
  | bool b => by cases b <;> decide
  | int n => over_toString_int n
  | float x => over_numeralText NumeralLayout.json_hasVisibleWords x
  | str t => over_quote t
  | arr items => by
    simp only [text, array, over_append]
    exact ⟨⟨by decide, over_intercalate (by decide) (over_texts items)⟩, by decide⟩
  | obj fields => by
    simp only [text, object, over_append]
    exact ⟨⟨by decide, over_intercalate (by decide) (over_fieldTexts fields)⟩, by decide⟩

theorem over_texts : (ds : List Document) → ∀ s ∈ texts ds, Over IsVisible s
  | [] => by simp [texts]
  | d :: ds => List.forall_mem_cons.mpr ⟨over_text d, over_texts ds⟩

theorem over_fieldTexts : (fields : List (Text × Document)) →
    ∀ s ∈ (fieldTexts fields).map fun (key, value) => quote key ++ ": " ++ value, Over IsVisible s
  | [] => by simp [fieldTexts]
  | (name, d) :: fields => by
    simp only [fieldTexts, List.map_cons]
    refine List.forall_mem_cons.mpr ⟨?_, over_fieldTexts fields⟩
    exact over_append.mpr ⟨over_append.mpr ⟨over_quote name, by decide⟩, over_text d⟩

end

end Document

/-! ## Reading a document -/

section Reading

variable {cs rest : List Char} {fuel : Nat}

theorem dropBlanks_cons {c : Char} (hc : c ∉ [' ', '\t', '\n', '\r']) :
    dropBlanks (c :: cs) = c :: cs := by
  simp_all [dropBlanks]

theorem takeDocument?_blank : takeDocument? fuel (' ' :: cs) = takeDocument? fuel cs := by
  cases fuel with
  | zero => rfl
  | succ fuel => rfl

theorem takeItems?_blank {before : List Document} :
    takeItems? fuel before (' ' :: cs) = takeItems? fuel before cs := by
  cases fuel with
  | zero => rfl
  | succ fuel => rw [takeItems?, takeDocument?_blank, takeItems?]

theorem takeFields?_blank {before : List (Text × Document)} :
    takeFields? fuel before (' ' :: cs) = takeFields? fuel before cs := by
  cases fuel with
  | zero => rfl
  | succ fuel => rfl

theorem takeDocument?_scalar {d : Document} (h : ScalarText cs d) (hrest : Ends rest) :
    takeDocument? (fuel + 1) (cs ++ rest) = some (d, rest) := by
  have hhead := h.head
  rw [← h.reads rest hrest, takeDocument?]
  cases cs with
  | nil => cases hhead
  | cons c cs =>
    have hc : c ∉ delimiters := of_decide_eq_true hhead
    have hblank : c ∉ [' ', '\t', '\n', '\r'] := fun h => hc (by simp_all [delimiters])
    rw [List.cons_append, dropBlanks_cons hblank]
    split <;> simp_all [delimiters]

theorem takeDocument?_str (t : Text) :
    takeDocument? (fuel + 1) ((quote t).toList ++ rest) = some (.str t.joined, rest) := by
  simp [takeDocument?, quote, dropBlanks_cons, takeString?_flatMap]

theorem takeDocument?_arr (h : cs.head?.any (· ∉ [' ', '\t', '\n', '\r', ']'])) :
    takeDocument? (fuel + 1) ('[' :: cs) = takeItems? fuel [] cs := by
  cases cs with
  | nil => cases h
  | cons c cs =>
    have hc : c ∉ [' ', '\t', '\n', '\r', ']'] := of_decide_eq_true h
    have hblank : c ∉ [' ', '\t', '\n', '\r'] := fun h => hc (by simp_all)
    rw [takeDocument?, dropBlanks_cons (by decide)]
    simp only [dropBlanks_cons hblank]
    split <;> simp_all

theorem takeDocument?_obj : takeDocument? (fuel + 1) ('\x7b' :: '"' :: cs) =
    takeFields? fuel [] ('"' :: cs) := by
  simp [takeDocument?, dropBlanks_cons]

theorem takeItems?_last {before : List Document} {d : Document}
    (hd : takeDocument? fuel cs = some (d, ']' :: rest)) :
    takeItems? (fuel + 1) before cs = some (.arr (before.reverse ++ [d]), rest) := by
  simp [takeItems?, hd, dropBlanks_cons]

theorem takeItems?_next {before : List Document} {d : Document}
    (hd : takeDocument? fuel cs = some (d, ',' :: rest)) :
    takeItems? (fuel + 1) before cs = takeItems? fuel (d :: before) rest := by
  simp [takeItems?, hd, dropBlanks_cons]

section Fields

variable {before : List (Text × Document)} {name : Text} {d : Document}

theorem takeFields?_last (hd : takeDocument? fuel cs = some (d, '\x7d' :: rest)) :
    takeFields? (fuel + 1) before ((quote name).toList ++ ':' :: ' ' :: cs) =
      some (.obj (before.reverse ++ [(name.joined, d)]), rest) := by
  simp [takeFields?, quote, takeString?_flatMap, takeDocument?_blank, hd, dropBlanks_cons]

theorem takeFields?_next (hd : takeDocument? fuel cs = some (d, ',' :: rest)) :
    takeFields? (fuel + 1) before ((quote name).toList ++ ':' :: ' ' :: cs) =
      takeFields? fuel ((name.joined, d) :: before) rest := by
  simp [takeFields?, quote, takeString?_flatMap, takeDocument?_blank, hd, dropBlanks_cons]

end Fields

end Reading

namespace Document

section Read

variable {rest : List Char} {fuel : Nat}

theorem ends_cons {c : Char} (hc : c ∈ [',', ']', '\x7d']) : Ends (c :: rest) := by
  have hpart : ¬ Numeral.isPart c := by
    rw [Numeral.isPart_iff]
    simp only [List.mem_cons, List.not_mem_nil, or_false] at hc
    obtain rfl | rfl | rfl := hc <;> decide
  simpa [Ends] using hpart

theorem scalarText_null : ScalarText null.text.toList null :=
  have hnull : ("null", null) ∈ words := by simp [words]
  scalarText_of_mem_words hnull

theorem scalarText_bool (b : Bool) : ScalarText (bool b).text.toList (bool b) := by
  have hfalse : ("false", bool false) ∈ words := by simp [words]
  have htrue : ("true", bool true) ∈ words := by simp [words]
  cases b with
  | false => exact scalarText_of_mem_words hfalse
  | true => exact scalarText_of_mem_words htrue

/-- The items of an array as they are written. -/
def itemsText (ds : List Document) : List Char := (", ".intercalate (texts ds)).toList

theorem toList_text_arr (items : List Document) :
    (arr items).text.toList = '[' :: (itemsText items ++ [']']) := by
  simp [text, array, itemsText]

theorem itemsText_singleton (d : Document) : itemsText [d] = d.text.toList := by
  simp [itemsText, texts]

theorem itemsText_cons_cons (d e : Document) (ds : List Document) :
    itemsText (d :: e :: ds) = d.text.toList ++ ',' :: ' ' :: itemsText (e :: ds) := by
  simp [itemsText, texts, String.intercalate_cons_cons]

/-- The fields of an object as they are written. -/
def fieldsText (fields : List (Text × Document)) : List Char :=
  (", ".intercalate ((fieldTexts fields).map fun (key, value) =>
    quote key ++ ": " ++ value)).toList

theorem toList_text_obj (fields : List (Text × Document)) :
    (obj fields).text.toList = '\x7b' :: (fieldsText fields ++ ['\x7d']) := by
  simp [text, object, fieldsText]

theorem fieldsText_singleton (name : Text) (d : Document) :
    fieldsText [(name, d)] = (quote name).toList ++ ':' :: ' ' :: d.text.toList := by
  simp [fieldsText, fieldTexts]

theorem fieldsText_cons_cons (name : Text) (d : Document) (field : Text × Document)
    (fields : List (Text × Document)) :
    fieldsText ((name, d) :: field :: fields) =
      (quote name).toList ++ ':' :: ' ' :: d.text.toList ++ ',' :: ' ' ::
        fieldsText (field :: fields) := by
  simp [fieldsText, fieldTexts, String.intercalate_cons_cons]

/-- No document starts like the end of an array. -/
theorem head_text (d : Document) (h : d.WellFormed) :
    d.text.toList.head?.any (· ∉ [' ', '\t', '\n', '\r', ']']) := by
  have hscalar {cs : List Char} {d : Document} (h : ScalarText cs d) :
      cs.head?.any (· ∉ [' ', '\t', '\n', '\r', ']']) := by
    have hhead := h.head
    cases cs with
    | nil => cases hhead
    | cons c cs => simp_all [delimiters]
  cases d with
  | null => rfl
  | bool b => cases b <;> rfl
  | int n => exact hscalar (scalarText_int n)
  | float x => exact hscalar (scalarText_float h)
  | str t => simp [text, quote]
  | arr items => simp [toList_text_arr]
  | obj fields => simp [toList_text_obj]

theorem head_itemsText {d : Document} {ds : List Document} (h : AllWellFormed (d :: ds))
    (rest : List Char) :
    (itemsText (d :: ds) ++ rest).head?.any (· ∉ [' ', '\t', '\n', '\r', ']']) := by
  have hhead := head_text d h.1
  cases heq : d.text.toList with
  | nil => simp [heq] at hhead
  | cons c cs =>
    rw [heq] at hhead
    cases ds with
    | nil => simpa [itemsText_singleton, heq] using hhead
    | cons e ds => simpa [itemsText_cons_cons, heq] using hhead

theorem exists_fieldsText (field : Text × Document) (fields : List (Text × Document)) :
    ∃ cs, fieldsText (field :: fields) = '"' :: cs := by
  obtain ⟨name, d⟩ := field
  cases fields with
  | nil => exact ⟨_, by rw [fieldsText_singleton, quote, String.toList_ofList]; rfl⟩
  | cons field fields => exact ⟨_, by rw [fieldsText_cons_cons, quote, String.toList_ofList]; rfl⟩

theorem length_text_pos (d : Document) (h : d.WellFormed) : 0 < d.text.toList.length := by
  have hhead := head_text d h
  cases heq : d.text.toList with
  | nil => simp [heq] at hhead
  | cons c cs => simp

mutual

/-- Every part of a document takes up some of its text, so as much fuel as there is text suffices.
-/
theorem takeDocument?_text : (d : Document) → d.WellFormed → ∀ fuel rest,
    d.text.toList.length ≤ fuel → Ends rest →
    takeDocument? fuel (d.text.toList ++ rest) = some (d.joined, rest)
  | d, h => fun
    | 0, _, hfuel, _ => absurd (length_text_pos d h) (Nat.not_lt.mpr hfuel)
    | fuel + 1, rest, hfuel, hrest =>
      match d with
      | null => takeDocument?_scalar scalarText_null hrest
      | bool b => takeDocument?_scalar (scalarText_bool b) hrest
      | int n => takeDocument?_scalar (scalarText_int n) hrest
      | float _ => takeDocument?_scalar (scalarText_float h) hrest
      | str t => takeDocument?_str t
      | arr [] => rfl
      | arr (item :: items) => by
        have hlength : (itemsText (item :: items)).length < fuel := by
          simp only [toList_text_arr, List.length_cons, List.length_append] at hfuel
          omega
        have hitems := takeItems?_itemsText (item :: items) h (by simp) fuel [] rest hlength
        rw [toList_text_arr, List.cons_append, List.append_assoc, List.singleton_append,
          takeDocument?_arr (head_itemsText h _), hitems]
        rfl
      | obj [] => rfl
      | obj (field :: fields) => by
        have hlength : (fieldsText (field :: fields)).length < fuel := by
          simp only [toList_text_obj, List.length_cons, List.length_append] at hfuel
          omega
        have hfields := takeFields?_fieldsText (field :: fields) h (by simp) fuel [] rest hlength
        obtain ⟨cs, hcs⟩ := exists_fieldsText field fields
        rw [toList_text_obj, List.cons_append, List.append_assoc, List.singleton_append, hcs,
          List.cons_append, takeDocument?_obj, ← List.cons_append, ← hcs, hfields]
        rfl

theorem takeItems?_itemsText : (ds : List Document) → AllWellFormed ds → ds ≠ [] →
    ∀ fuel before rest, (itemsText ds).length < fuel →
    takeItems? fuel before (itemsText ds ++ ']' :: rest) =
      some (.arr (before.reverse ++ allJoined ds), rest)
  | [], _, h => absurd rfl h
  | [d], h, _ => fun
    | fuel + 1, before, rest, hfuel => by
      rw [itemsText_singleton] at hfuel ⊢
      exact takeItems?_last (takeDocument?_text d h.1 fuel (']' :: rest) (Nat.le_of_lt_succ hfuel)
        (ends_cons (by decide)))
  | d :: e :: ds, h, _ => fun
    | fuel + 1, before, rest, hfuel => by
      rw [itemsText_cons_cons] at hfuel ⊢
      simp only [List.length_append, List.length_cons] at hfuel
      have hd := takeDocument?_text d h.1 fuel (',' :: ' ' :: (itemsText (e :: ds) ++ ']' :: rest))
        (by omega) (ends_cons (by decide))
      have hds := takeItems?_itemsText (e :: ds) h.2 (by simp) fuel (d.joined :: before) rest
        (by omega)
      simp only [List.append_assoc, List.cons_append]
      rw [takeItems?_next hd, takeItems?_blank, hds]
      simp [allJoined]

theorem takeFields?_fieldsText : (fields : List (Text × Document)) → FieldsWellFormed fields →
    fields ≠ [] → ∀ fuel before rest, (fieldsText fields).length < fuel →
    takeFields? fuel before (fieldsText fields ++ '\x7d' :: rest) =
      some (.obj (before.reverse ++ fieldsJoined fields), rest)
  | [], _, h => absurd rfl h
  | [(name, d)], h, _ => fun
    | fuel + 1, before, rest, hfuel => by
      rw [fieldsText_singleton] at hfuel ⊢
      simp only [List.length_append, List.length_cons] at hfuel
      simp only [List.append_assoc, List.cons_append]
      exact takeFields?_last (takeDocument?_text d h.1 fuel ('\x7d' :: rest) (by omega)
        (ends_cons (by decide)))
  | (name, d) :: field :: fields, h, _ => fun
    | fuel + 1, before, rest, hfuel => by
      rw [fieldsText_cons_cons] at hfuel ⊢
      simp only [List.length_append, List.length_cons] at hfuel
      have hd := takeDocument?_text d h.1 fuel
        (',' :: ' ' :: (fieldsText (field :: fields) ++ '\x7d' :: rest)) (by omega)
        (ends_cons (by decide))
      have hds := takeFields?_fieldsText (field :: fields) h.2 (by simp) fuel
        ((name.joined, d.joined) :: before) rest (by omega)
      simp only [List.append_assoc, List.cons_append]
      rw [takeFields?_next hd, takeFields?_blank, hds]
      simp [fieldsJoined]

end

end Read

end Document

end Json

end Semijoin
