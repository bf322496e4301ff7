import Stepwise.Config.Basic
import Stepwise.FileTree

namespace Stepwise.Config
open Toml

/-- The directory for settings: the one that the environment names, if its path is absolute, or
else one in the home directory. -/
def directory (home : Path) (configured : Option Path) : Path :=
  match configured.filter Path.isAbsolute with
  | some directory => directory
  | none => home.join ⟨".config"⟩

def defaultPath (home : Path) (configured : Option Path) : Path :=
  ((directory home configured).join ⟨"scriptdap"⟩).join ⟨"config.toml"⟩

inductive LoadError where
  | unreadable (path : Path)
  | malformed (path : Path)
deriving Repr, DecidableEq

def LoadError.message : LoadError → String
  | .unreadable path => "reading config file " ++ path.text
  | .malformed path => "parsing config file " ++ path.text

/-- Told of a text that does not give settings. -/
def malformedMessage : String := "deserializing configuration"

inductive SaveError where
  | noDirectory (path : Path)
  | unwritable
  | refused (path : Path)
deriving Repr, DecidableEq

def SaveError.message : SaveError → String
  | .noDirectory path => "creating config directory " ++ path.text
  | .unwritable => "serializing configuration"
  | .refused path => "writing config file " ++ path.text

section

variable (library : Library)

/-- The settings in a file; all of them have their defaults if there is no regular file. -/
def load (t : FileTree) (p : Path) : Except LoadError Config :=
  match t.find? p with
  | some (.file content access) =>
    if access.readable then
      match String.fromUTF8? content with
      | none => .error (.unreadable p)
      | some text =>
        match parse? library text with
        | none => .error (.malformed p)
        | some c => .ok c
    else .error (.unreadable p)
  | _ => .ok {}

/-- Writes the settings into a file and makes the directories above it. -/
def save (c : Config) (t : FileTree) (p : Path) : Except SaveError Unit × FileTree :=
  match p.parent? with
  | none => write c t
  | some parent =>
    match t.makeDirectories parent with
    | (true, t) => write c t
    | (false, t) => (.error (.noDirectory parent), t)
where
  write (c : Config) (t : FileTree) : Except SaveError Unit × FileTree :=
    match c.print? library with
    | none => (.error .unwritable, t)
    | some text =>
      match t.write? p text.toUTF8 with
      | none => (.error (.refused p), t)
      | some t => (.ok (), t)

end

end Stepwise.Config
