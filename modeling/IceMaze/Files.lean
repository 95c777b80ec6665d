import IceMaze.Text.Split

/-!
Reading and writing files by path, on a disk or in a folder that is only a value.

A path is walked name by name. `Folder.read?_write` says what writing a file does to every place,
and `Folder.readText_writeText` that what is written under a path can be read under it.
-/

namespace IceMaze

open Text

/-- Why a file cannot be read or written. -/
inductive FileError where
  | notFound
  | notFolder
  | isFolder
  | longName
  | nulInPath
  | notUnicode
  /-- A cause that only a disk knows. -/
  | other (text : String)
  deriving DecidableEq

def FileError.message : FileError → String
  | .notFound => "No such file or directory (os error 2)"
  | .notFolder => "Not a directory (os error 20)"
  | .isFolder => "Is a directory (os error 21)"
  | .longName => "File name too long (os error 36)"
  | .nulInPath => "file name contained an unexpected NUL byte"
  | .notUnicode => "stream did not contain valid UTF-8"
  | .other text => text

/-- How to reach files. -/
structure FileAccess (m : Type → Type) where
  read : String → m (Except FileError String)
  write : String → String → m (Except FileError Unit)

/-! ## Paths -/

structure Path where
  /-- The walk starts in the folder that holds all others. -/
  fromTop : Bool
  names : List String
  /-- The path ends in a slash and can only lead to a folder. -/
  slashed : Bool

namespace Path

/-- In bytes. -/
def maxSize : Nat := 4095

/-- In bytes. -/
def maxNameSize : Nat := 255

def ofString (s : String) : Path :=
  ⟨s.toList.head? = some '/', ((splitAt '/' s.toList).filter (· ≠ [])).map String.ofList,
    s.toList.getLast? = some '/'⟩

def ofString? (s : String) : Except FileError Path :=
  if '\x00' ∈ s.toList then .error .nulInPath
  else if s = "" then .error .notFound
  else if maxSize < s.utf8ByteSize then .error .longName
  else .ok (ofString s)

end Path

/-! ## A folder -/

/-- A name in the folder that lies `height` folders up; without a height, in the one that holds all
others. -/
structure FilePlace where
  height : Option Nat
  name : String
  deriving DecidableEq

/-- A folder without subfolders, and the folders it lies in: the text of each file. -/
structure Folder where
  files : List (FilePlace × String)
  deriving DecidableEq

/-- Where a path leads. -/
inductive Destination where
  | folder (height : Option Nat)
  | file (place : FilePlace) (text : String)
  | vacant (place : FilePlace)

namespace Folder

/-- The folder with these files. -/
def ofFiles (files : List (String × String)) : Folder :=
  ⟨files.map fun p => (⟨some 0, p.1⟩, p.2)⟩

def read? (f : Folder) (place : FilePlace) : Option String :=
  (f.files.find? (·.1 = place)).map Prod.snd

def write (f : Folder) (place : FilePlace) (text : String) : Folder :=
  ⟨(place, text) :: f.files⟩

theorem read?_write {f : Folder} {a b : FilePlace} {text : String} :
    (f.write a text).read? b = if a = b then some text else f.read? b := by
  by_cases h : a = b <;> simp [read?, write, h]

/-- Go on from a destination to a name. -/
def enter (f : Folder) (name : String) : Destination → Except FileError Destination
  | .vacant _ => .error .notFound
  | .file .. => .error .notFolder
  | .folder height =>
    if name = "." then .ok (.folder height)
    else if name = ".." then .ok (.folder (height.map (· + 1)))
    else if Path.maxNameSize < name.utf8ByteSize then .error .longName
    else match f.read? ⟨height, name⟩ with
      | some text => .ok (.file ⟨height, name⟩ text)
      | none => .ok (.vacant ⟨height, name⟩)

def walk (f : Folder) : List String → Destination → Except FileError Destination
  | [], d => .ok d
  | name :: names, d => do f.walk names (← f.enter name d)

def start (p : Path) : Destination := .folder (if p.fromTop then none else some 0)

def readText (f : Folder) (path : String) : Except FileError String := do
  let p ← Path.ofString? path
  match ← f.walk p.names (start p) with
  | .folder _ => .error .isFolder
  | .vacant _ => .error .notFound
  | .file _ text => if p.slashed then .error .notFolder else .ok text

/-- A file that is there is replaced. The last name before a slash is not looked at. -/
def writeText (f : Folder) (path text : String) : Except FileError Folder := do
  let p ← Path.ofString? path
  match ← f.walk (if p.slashed then p.names.dropLast else p.names) (start p) with
  | .folder _ => .error .isFolder
  | .vacant place => if p.slashed then .error .notFound else .ok (f.write place text)
  | .file place _ => if p.slashed then .error .notFolder else .ok (f.write place text)

def access : FileAccess (StateM Folder) where
  read path := return (← get).readText path
  write path text := do
    match (← get).writeText path text with
    | .ok f =>
      set f
      return .ok ()
    | .error e => return .error e

/-! ## Reading what was written -/

theorem walk_write {f : Folder} {names : List String} {height : Option Nat} {d : Destination}
    {place : FilePlace} {text : String} (h : f.walk names (.folder height) = .ok d)
    (hd : d = .vacant place ∨ ∃ old, d = .file place old) :
    (f.write place text).walk names (.folder height) = .ok (.file place text) := by
  induction names generalizing height with
  | nil =>
    cases h
    simp at hd
  | cons name names ih =>
    by_cases h₁ : name = "."
    · simp only [walk, enter, h₁, if_true] at h ⊢
      exact ih h
    by_cases h₂ : name = ".."
    · simp only [walk, enter, h₂, if_true] at h ⊢
      exact ih h
    by_cases h₃ : Path.maxNameSize < name.utf8ByteSize
    · simp [walk, enter, h₁, h₂, h₃, bind, Except.bind] at h
    cases names with
    | nil =>
      have hp : ⟨height, name⟩ = place := by
        cases hr : f.read? ⟨height, name⟩ <;>
          simp only [walk, enter, h₁, h₂, h₃, hr, if_false, bind, Except.bind, Except.ok.injEq] at h <;>
          subst h <;> simpa using hd
      simp [walk, enter, h₁, h₂, h₃, hp, read?_write, bind, Except.bind]
    | cons next rest =>
      cases hr : f.read? ⟨height, name⟩ <;>
        simp [walk, enter, h₁, h₂, h₃, hr, bind, Except.bind] at h

theorem readText_writeText {f g : Folder} {path text : String}
    (h : f.writeText path text = .ok g) : g.readText path = .ok text := by
  unfold writeText at h
  unfold readText
  cases hp : Path.ofString? path with
  | error e => simp [hp, bind, Except.bind] at h
  | ok p =>
    by_cases hs : p.slashed
    · cases hw : f.walk p.names.dropLast (start p) with
      | error e => simp [hp, hs, hw, bind, Except.bind] at h
      | ok d => cases d <;> simp [hp, hs, hw, bind, Except.bind] at h
    · cases hw : f.walk p.names (start p) with
      | error e => simp [hp, hs, hw, bind, Except.bind] at h
      | ok d =>
        cases d with
        | folder height => simp [hp, hs, hw, bind, Except.bind] at h
        | vacant place =>
          simp only [hp, hs, hw, bind, Except.bind, if_false, Except.ok.injEq,
            Bool.false_eq_true] at h
          subst h
          simp [walk_write hw (.inl rfl), start, hs, bind, Except.bind]
        | file place old =>
          simp only [hp, hs, hw, bind, Except.bind, if_false, Except.ok.injEq,
            Bool.false_eq_true] at h
          subst h
          simp [walk_write hw (.inr ⟨old, rfl⟩), start, hs, bind, Except.bind]

end Folder
end IceMaze
