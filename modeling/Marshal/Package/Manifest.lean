import Marshal.Phrase.Grammar

/-!
Which path leads to a package from the package that a manifest belongs to. A package that is
depended on is reached directly; one of the family also through the facade, where that is
depended on. Dependencies are looked at before those for development.
-/

namespace Marshal.Package

open Phrase (PathText)

inductive ManifestFault
  | missing (file : String)
  | malformed (file : String)
  | invalidPath (text : String)
deriving DecidableEq, Repr

def ManifestFault.message : ManifestFault → String
  | .missing file => "Cargo manifest does not exist at path " ++ file
  | .malformed file => "Failed to parse cargo manifest: " ++ file
  | .invalidPath text => s!"`{text}` is not a valid path"

/-- A section either is a table of its own or stands on one line; only tables are looked into. -/
inductive SectionForm
  | table
  | line
deriving DecidableEq, Repr

structure ManifestSection where
  name : String
  form : SectionForm
  entries : List String
deriving DecidableEq, Repr

inductive ManifestFile
  | missing
  | malformed
  | sections (parts : List ManifestSection)
deriving DecidableEq, Repr

structure Manifest where
  dependencies : List String
  development : List String
deriving DecidableEq, Repr

namespace ManifestFile

def entries (parts : List ManifestSection) (name : String) : List String :=
  match parts.find? fun part => part.name = name with
  | some ⟨_, .table, entries⟩ => entries
  | _ => []

/-- A file that names an entry of a section twice is malformed. -/
def read (file : String) : ManifestFile → Except ManifestFault Manifest
  | .missing => .error (.missing file)
  | .malformed => .error (.malformed file)
  | .sections parts =>
      if parts.all fun part => part.entries.Nodup then
        .ok ⟨entries parts "dependencies", entries parts "dev-dependencies"⟩
      else .error (.malformed file)

end ManifestFile

/-- The package through which the packages of the family can be reached. -/
def facade : String := "vc_assembly"

/-- What the name of a package of the family starts with, and its name within the facade. -/
def familyName? (name : String) : Option String :=
  match name.toList with
  | 'v' :: 'c' :: '_' :: rest => some (String.ofList rest)
  | _ => none

namespace Manifest

def resolve? (names : List String) (name : String) : Option String :=
  if names.contains name then some ("::" ++ name)
  else
    match familyName? name with
    | some short => if names.contains facade then some ("::" ++ facade ++ "::" ++ short) else none
    | none => none

/-- A package that is not depended on at all is taken to be reached directly. -/
def pathText (manifest : Manifest) (name : String) : String :=
  match resolve? manifest.dependencies name with
  | some text => text
  | none => (resolve? manifest.development name).getD ("::" ++ name)

def packagePath (manifest : Manifest) (name : String) : Except ManifestFault PathText :=
  match PathText.ofText? (manifest.pathText name) with
  | some path => .ok path
  | none => .error (.invalidPath (manifest.pathText name))

end Manifest

/-- The path to a package by way of a manifest's file. -/
def ManifestFile.packagePath (contents : ManifestFile) (file name : String) :
    Except ManifestFault PathText :=
  match contents.read file with
  | .error fault => .error fault
  | .ok manifest => manifest.packagePath name

end Marshal.Package
