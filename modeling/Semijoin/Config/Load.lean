import Semijoin.Config.Document

/-!
# Loading a configuration

A configuration is loaded from a document at a path. How the text of a document is read is up to
the parser that is used.
-/

namespace Semijoin

/-- Why a configuration cannot be loaded. The parser has faults of its own. -/
inductive LoadError (Fault : Type) where
  | notFound (path : String)
  | parse (cause : Fault)
  | document (cause : DocumentError)

/-- What is said about a missing document. -/
def LoadError.notFoundMessage (path : String) : String := s!"Config file not found: {path}"

/-- The configuration in a document with this text; without text there is no document at the path.
-/
def Config.load {Fault : Type} (parse : String → Except Fault Value) (path : String)
    (text : Option String) : Except (LoadError Fault) Config :=
  match text with
  | none => .error (.notFound path)
  | some text => do
    let document ← (parse text).mapError .parse
    (Config.ofDocument path document).mapError .document

end Semijoin
