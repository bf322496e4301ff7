import Stepwise.Config.Record
import Stepwise.Display

namespace Stepwise

structure SessionSettings where
  /-- How long a request waits for the engine's thread, in milliseconds. -/
  requestTimeoutMs : Nat := 10000
deriving Repr, DecidableEq

/-- The whole seconds of the time limit and the nanoseconds beyond them. -/
def SessionSettings.requestTimeout (s : SessionSettings) : Nat × Nat :=
  (s.requestTimeoutMs / 1000, s.requestTimeoutMs % 1000 * 1000000)

structure Config where
  session : SessionSettings := {}
  formatting : Literals := {}
deriving Repr, DecidableEq

def SessionSettings.fields : List (Field SessionSettings) :=
  [⟨"request_timeout_ms", Nat, .number, (·.requestTimeoutMs), fun n _ => ⟨n⟩⟩]

def Literals.fields : List (Field Literals) :=
  [⟨"true_literal", String, .text, (·.trueText), fun s l => { l with trueText := s }⟩,
   ⟨"false_literal", String, .text, (·.falseText), fun s l => { l with falseText := s }⟩,
   ⟨"null_literal", String, .text, (·.nullText), fun s l => { l with nullText := s }⟩]

namespace Config
open Toml

def fields : List (Field Config) :=
  [⟨"session", SessionSettings, .record SessionSettings.fields {}, (·.session),
    fun s c => { c with session := s }⟩,
   ⟨"formatting", Literals, .record Literals.fields {}, (·.formatting),
    fun l c => { c with formatting := l }⟩]

variable (library : Library)

/-- The document of all settings, unless the library refuses to print it. -/
def print? (c : Config) : Option String :=
  library.print? (Record.toTable fields c)

/-- The settings that a text gives; none if it is not a document or a setting has the wrong kind of
value.  A setting that it leaves out has its default. -/
def parse? (text : String) : Option Config := do
  Record.ofTable? fields (← library.read? text) {}

end Config
end Stepwise
