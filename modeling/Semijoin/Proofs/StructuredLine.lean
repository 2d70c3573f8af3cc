import Semijoin.Logging.Layout
import Semijoin.Proofs.Documents
import Semijoin.Proofs.JsonDocument
import Semijoin.Proofs.Run

/-!
# Structured lines

A structured line is one line of visible characters, which reads as an object with the fields of the
record: those of its own, then those that the context adds, then its failure. Where the context has
a field of the record it has its value, and the failure comes before both. Two surrogates that are a
pair are written like the character that they stand for, so names of the context that differ in
nothing else become one key.
-/

namespace Semijoin

open Json

/-! ## Values as documents -/

namespace Value

mutual

/-- The document that a value is written as. -/
def document? : Value → Option Document
  | null => some .null
  | bool b => some (.bool b)
  | int n => some (.int n)
  | float x => some (.float x)
  | str s => some (.str s)
  | list xs | tuple xs => (documents? xs).map .arr
  | map entries => (documentFields? entries).map .obj
  | x => some (.str x.plain)

def documents? : List Value → Option (List Document)
  | [] => some []
  | x :: xs => do return (← document? x) :: (← documents? xs)

def documentFields? : List (Value × Value) → Option (List (Text × Document))
  | [] => some []
  | (key, value) :: entries => do
    return (← jsonKey? key, ← document? value) :: (← documentFields? entries)

end

mutual

theorem json?_eq : (v : Value) → v.json? = (document? v).map Document.text
  | null | bool _ | int _ | float _ | str _ => rfl
  | decimal _ | fraction _ | date _ | datetime _ | bytes _ | set _ | again _ => rfl
  | list xs => by
    simp [json?, document?, jsonList?_eq xs, Document.text, Function.comp_def]
  | tuple xs => by
    simp [json?, document?, jsonList?_eq xs, Document.text, Function.comp_def]
  | map entries => by
    simp [json?, document?, jsonEntries?_eq entries, Document.text, Function.comp_def]

theorem jsonList?_eq : (xs : List Value) → jsonList? xs = (documents? xs).map Document.texts
  | [] => rfl
  | x :: xs => by
    rw [jsonList?, documents?, json?_eq x, jsonList?_eq xs]
    cases document? x <;> cases documents? xs <;> rfl

theorem jsonEntries?_eq : (entries : List (Value × Value)) →
    jsonEntries? entries = (documentFields? entries).map Document.fieldTexts
  | [] => rfl
  | (key, value) :: entries => by
    rw [jsonEntries?, documentFields?, json?_eq value, jsonEntries?_eq entries]
    cases jsonKey? key <;> cases document? value <;> cases documentFields? entries <;> rfl

end

mutual

/-- Every double inside a value is one that there is. -/
def WellFormed : Value → Prop
  | float x => x.IsDouble
  | list xs | tuple xs | set xs => AllWellFormed xs
  | map entries => EntriesWellFormed entries
  | _ => True

def AllWellFormed : List Value → Prop
  | [] => True
  | x :: xs => x.WellFormed ∧ AllWellFormed xs

def EntriesWellFormed : List (Value × Value) → Prop
  | [] => True
  | (key, value) :: entries => key.WellFormed ∧ value.WellFormed ∧ EntriesWellFormed entries

end

mutual

theorem wellFormed_document? : (v : Value) → v.WellFormed → ∀ d, document? v = some d → d.WellFormed
  | null, _, _, h | bool _, _, _, h | int _, _, _, h | str _, _, _, h => by
    obtain rfl := Option.some.inj h
    trivial
  | decimal _, _, _, h | fraction _, _, _, h | date _, _, _, h | datetime _, _, _, h => by
    obtain rfl := Option.some.inj h
    trivial
  | bytes _, _, _, h | set _, _, _, h | again _, _, _, h => by
    obtain rfl := Option.some.inj h
    trivial
  | float x, hx, _, h => Option.some.inj h ▸ hx
  | list xs, hxs, _, h | tuple xs, hxs, _, h => by
    obtain ⟨ds, hds, rfl⟩ := Option.map_eq_some_iff.mp h
    exact wellFormed_documents? xs hxs ds hds
  | map entries, hentries, _, h => by
    obtain ⟨fields, hfields, rfl⟩ := Option.map_eq_some_iff.mp h
    exact wellFormed_documentFields? entries hentries fields hfields

theorem wellFormed_documents? : (xs : List Value) → AllWellFormed xs → ∀ ds,
    documents? xs = some ds → Document.AllWellFormed ds
  | [], _, _, h => by
    obtain rfl := Option.some.inj h
    trivial
  | x :: xs, hxs, _, h => by
    simp only [documents?, Option.bind_eq_bind, Option.bind_eq_some_iff] at h
    obtain ⟨d, hd, ds, hds, heq⟩ := h
    obtain rfl := Option.some.inj heq
    exact ⟨wellFormed_document? x hxs.1 d hd, wellFormed_documents? xs hxs.2 ds hds⟩

theorem wellFormed_documentFields? : (entries : List (Value × Value)) →
    EntriesWellFormed entries → ∀ fields, documentFields? entries = some fields →
    Document.FieldsWellFormed fields
  | [], _, _, h => by
    obtain rfl := Option.some.inj h
    trivial
  | (key, value) :: entries, hentries, _, h => by
    simp only [documentFields?, Option.bind_eq_bind, Option.bind_eq_some_iff] at h
    obtain ⟨name, -, d, hd, fields, hfields, heq⟩ := h
    obtain rfl := Option.some.inj heq
    exact ⟨wellFormed_document? value hentries.2.1 d hd,
      wellFormed_documentFields? entries hentries.2.2 fields hfields⟩

end

end Value

/-! ## The fields of a record -/

namespace Logging

namespace Context

variable {context extra : Context} {name other : Text} {value : Value}

def names (context : Context) : List Text := context.map Prod.fst

theorem merge_append (context extra : Context) (name : Text) (value : Value) :
    context.merge (extra ++ [(name, value)]) = (context.merge extra).put name value := by
  simp [merge]

def WellFormed (context : Context) : Prop := ∀ e ∈ context, e.2.WellFormed

theorem WellFormed.put (h : context.WellFormed) (name : Text) (hvalue : value.WellFormed) :
    (context.put name value).WellFormed := by
  unfold Context.put
  split_ifs
  · intro e he
    obtain ⟨old, hold, rfl⟩ := List.mem_map.mp he
    split_ifs
    · exact hvalue
    · exact h old hold
  · intro e he
    obtain he | he := List.mem_append.mp he
    · exact h e he
    · exact List.mem_singleton.mp he ▸ hvalue

theorem WellFormed.merge (h : context.WellFormed) (hextra : extra.WellFormed) :
    (context.merge extra).WellFormed := by
  induction extra using List.reverseRecOn with
  | nil => exact h
  | append_singleton extra e ih =>
    rw [merge_append]
    exact (ih fun e he => hextra e (by simp [he])).put e.1 (hextra e (by simp))

end Context

namespace Record

section Fields

variable (r : Record) (time : String) (message : Text)

end Fields

/-! ## The line -/

variable {r : Record}

/-- The fields of a record as they are written. -/
def documents? (r : Record) (time : String) (message : Text) : Option (List (Text × Document)) :=
  Value.documentFields? ((r.fields time message).map fun (name, v) => (.str name, v))

section Documents

variable {time : String} {message : Text} {fields : List (Text × Document)}

end Documents

end Record

end Logging

end Semijoin
