import Appstore.Os.Filepath
import Mathlib.Data.List.Sort

namespace Appstore.Os

abbrev Path := List String

inductive Kind
  | file
  | dir
  | symlink (target : String)
  deriving DecidableEq, Repr

def validName (s : String) : Bool := s ≠ "" && s ≠ "." && s ≠ ".." && !s.toList.contains '/'

structure Node where
  parent : Path
  name : String
  kind : Kind
  deriving DecidableEq, Repr

structure FileSystem where
  nodes : List Node
  /-- The working directory, where a relative path starts. -/
  cwd : Path
  names_valid : nodes.all (validName ·.name) = true
  entries_nodup : (nodes.map fun n ↦ (n.parent, n.name)).Nodup

inductive Errno
  | noent
  | notdir
  | loop
  deriving DecidableEq, Repr

def Errno.text : Errno → String
  | noent => "no such file or directory"
  | notdir => "not a directory"
  | loop => "too many levels of symbolic links"

def maxSymlinks : Nat := 40

def osElems (path : String) : List String :=
  ((path.toList.splitOn '/').filter (· ≠ [])).map String.mk

namespace FileSystem

variable (fs : FileSystem)

def entry (dir : Path) (c : String) : Option Kind :=
  (fs.nodes.find? fun n ↦ n.parent = dir ∧ n.name = c).map (·.kind)

/-- The kernel's walk from directory `dir` down the names `cs`, to the path and
kind of what they name; `follow` resolves a symbolic link met on the way, from
the root or from the link's directory, with one link fewer left. -/
def resolveWith (follow : Path → List String → Except Errno (Path × Kind)) :
    Path → List String → Except Errno (Path × Kind)
  | dir, [] => .ok (dir, .dir)
  | dir, c :: cs =>
    if c = "." then resolveWith follow dir cs
    else if c = ".." then resolveWith follow dir.dropLast cs
    else match fs.entry dir c with
      | none => .error .noent
      | some .file => if cs = [] then .ok (dir ++ [c], .file) else .error .notdir
      | some .dir => resolveWith follow (dir ++ [c]) cs
      | some (.symlink t) => follow (if isRooted t.toList then [] else dir) (osElems t ++ cs)

def walk : Nat → Path → List String → Except Errno (Path × Kind)
  | 0 => fs.resolveWith fun _ _ ↦ .error .loop
  | n + 1 => fs.resolveWith (walk n)

def lookup (path : String) : Except Errno (Path × Kind) :=
  if path = "" then .error .noent
  else fs.walk maxSymlinks (if isRooted path.toList then [] else fs.cwd) (osElems path)

def stat (path : String) : Except String Kind :=
  match fs.lookup path with
  | .error e => .error ("stat " ++ path ++ ": " ++ e.text)
  | .ok (_, k) => .ok k

/-- A `DirEntry` of `os.ReadDir`: the entry's own kind, a link not followed. -/
structure DirEntry where
  name : String
  kind : Kind
  deriving DecidableEq, Repr

def DirEntry.isDir (e : DirEntry) : Bool := e.kind = .dir

def nameLe (a b : String) : Bool := !@decide _ (String.decLt b a)

/-- The entries of directory `dir`, in the order `ReadDir` sorts them. -/
def entries (dir : Path) : List DirEntry :=
  ((fs.nodes.filter (·.parent = dir)).map fun n ↦ ⟨n.name, n.kind⟩).insertionSort
    fun a b ↦ nameLe a.name b.name = true

/-- `os.ReadDir`: `Open`, then reading a directory's entries. -/
def readDir (name : String) : Except String (List DirEntry) :=
  match fs.lookup name with
  | .error e => .error ("open " ++ name ++ ": " ++ e.text)
  | .ok (_, .file) => .error ("readdirent " ++ name ++ ": not a directory")
  | .ok (dir, _) => .ok (fs.entries dir)

theorem mem_entries {dir : Path} {e : DirEntry} :
    e ∈ fs.entries dir ↔ ∃ n ∈ fs.nodes, n.parent = dir ∧ n.name = e.name ∧ n.kind = e.kind := by
  unfold entries
  rw [(List.perm_insertionSort _ _).mem_iff]
  simp only [List.mem_map, List.mem_filter, decide_eq_true_eq]
  constructor
  · rintro ⟨n, ⟨hn, hp⟩, rfl⟩
    exact ⟨n, hn, hp, rfl, rfl⟩
  · rintro ⟨n, hn, hp, hname, hkind⟩
    exact ⟨n, ⟨hn, hp⟩, by rw [hname, hkind]⟩

theorem lookup_ne_empty {path : String} {r : Path × Kind} (h : fs.lookup path = .ok r) : path ≠ "" := by
  rintro rfl
  cases h

theorem readDir_ok {name : String} {es : List DirEntry} (h : fs.readDir name = .ok es) :
    name ≠ "" ∧ ∃ dir, es = fs.entries dir := by
  unfold readDir at h
  split at h
  · cases h
  · cases h
  · rename_i hl
    cases h
    exact ⟨fs.lookup_ne_empty hl, _, rfl⟩

end FileSystem

end Appstore.Os
