/-
  Paths by their components, and a file system of directories and files.

  `components_display`: a path is found again from its text. What an operation leaves of the
  other files is said by `read` lemmas.
-/
import Mathlib.Data.List.AList

namespace GoudaMatrix.Lib

/-! ## Paths -/

/-- A path by its components. It is not resolved: `..` is a name like others. -/
abbrev Path := List String

namespace Path

/-- A component of a relative path: not empty, not `.` and without a separator. -/
def IsName (name : String) : Prop := name ≠ "" ∧ name ≠ "." ∧ '/' ∉ name.toList

/-- `components()` of a relative path: separators in a row and `.` do not count. -/
def components (s : String) : Path :=
  ((s.toList.splitOn '/').map String.ofList).filter fun name => name ≠ "" && name ≠ "."

/-- `join`, with a relative path. -/
def join (p : Path) (s : String) : Path := p ++ components s

/-- `file_name()`: the last component, if it is not `..`. -/
def fileName (p : Path) : Option String := p.getLast?.filter (· ≠ "..")

/-- `set_file_name()`. -/
def setFileName (p : Path) (name : String) : Path :=
  join (if p.fileName.isSome then p.dropLast else p) name

/-- `extension()`: what is behind the last dot of the file name, if there is something before. -/
def extension (p : Path) : Option String :=
  match (p.fileName.getD "").toList.splitOn '.' with
  | [] | [_] | [[], _] => none
  | _ :: parts => parts.getLast?.map String.ofList

/-- The directory or file that a component leads to from a resolved directory. -/
def enter (dir : Path) (name : String) : Path := if name = ".." then dir.dropLast else dir ++ [name]

/-- The path without `..`. The parent of the root is the root. -/
def resolve (p : Path) : Path := p.foldl enter []

/-- The text of a relative path. -/
def display (p : Path) : String := String.ofList (['/'].intercalate (p.map String.toList))

theorem splitOn_part {sep : Char} {xs part : List Char} (h : part ∈ xs.splitOn sep) :
    sep ∉ part ∧ ∀ c ∈ part, c ∈ xs := by
  induction xs generalizing part with
  | nil => simp_all
  | cons x xs ih =>
    rw [List.splitOn_cons_eq_if_modifyHead] at h
    split at h
    · rcases List.mem_cons.mp h with rfl | h
      · simp
      · exact ⟨(ih h).1, fun c hc => List.mem_cons_of_mem _ ((ih h).2 c hc)⟩
    · next hx =>
      cases hs : xs.splitOn sep with
      | nil => exact absurd hs (List.splitOn_ne_nil sep xs)
      | cons first rest =>
        rw [hs, List.modifyHead_cons] at h
        rcases List.mem_cons.mp h with rfl | h
        · obtain ⟨hsep, hsub⟩ := ih (hs ▸ List.mem_cons_self)
          have hx' : x ≠ sep := by simpa using hx
          refine ⟨fun hmem => ?_, fun c hc => ?_⟩
          · rcases List.mem_cons.mp hmem with heq | hmem
            · exact hx' heq.symm
            · exact hsep hmem
          · rcases List.mem_cons.mp hc with rfl | hc
            · exact List.mem_cons_self
            · exact List.mem_cons_of_mem _ (hsub c hc)
        · have hpart := ih (hs ▸ List.mem_cons_of_mem _ h)
          exact ⟨hpart.1, fun c hc => List.mem_cons_of_mem _ (hpart.2 c hc)⟩

theorem isName_of_mem_components {s name : String} (h : name ∈ components s) : IsName name := by
  unfold components at h
  rw [List.mem_filter, List.mem_map] at h
  obtain ⟨⟨part, hpart, rfl⟩, hname⟩ := h
  obtain ⟨hsep, -⟩ := splitOn_part hpart
  simp only [Bool.and_eq_true, decide_eq_true_eq] at hname
  exact ⟨hname.1, hname.2, by simpa using hsep⟩

theorem components_of_isName {name : String} (h : IsName name) : components name = [name] := by
  unfold components
  rw [List.splitOn_eq_singleton h.2.2]
  simp [h.1, h.2.1]

/-- A text without a separator that is no name has no components. -/
theorem components_of_not_isName {name : String} (hsep : '/' ∉ name.toList) (h : ¬ IsName name) :
    components name = [] := by
  unfold components
  rw [List.splitOn_eq_singleton hsep, List.map_singleton, String.ofList_toList]
  refine List.filter_eq_nil_iff.mpr fun part hmem => ?_
  rw [List.mem_singleton.mp hmem]
  intro hkept
  simp only [Bool.and_eq_true, decide_eq_true_eq] at hkept
  exact h ⟨hkept.1, hkept.2, hsep⟩

/-- A relative path is found again from its text. -/
theorem components_display {p : Path} (h : ∀ name ∈ p, IsName name) :
    components (display p) = p := by
  cases p with
  | nil => decide
  | cons first rest =>
    unfold components display
    rw [String.toList_ofList, List.splitOn_intercalate]
    · rw [List.map_map, List.filter_eq_self.mpr]
      · simp
      · intro name hmem
        simp only [List.mem_map, Function.comp_apply, String.ofList_toList] at hmem
        obtain ⟨name', hmem, rfl⟩ := hmem
        simp [(h name' hmem).1, (h name' hmem).2.1]
    · intro chars hmem
      obtain ⟨name, hname, rfl⟩ := List.mem_map.mp hmem
      exact (h name hname).2.2
    · simp

theorem setFileName_of_isName (dir : Path) {old name : String} (hold : old ≠ "..")
    (hname : IsName name) : setFileName (dir ++ [old]) name = dir ++ [name] := by
  have hfile : fileName (dir ++ [old]) = some old := by simp [fileName, hold]
  unfold setFileName join
  rw [hfile, components_of_isName hname]
  simp

theorem setFileName_append (dir : Path) {p : Path} (h : p ≠ []) (name : String) :
    setFileName (dir ++ p) name = dir ++ setFileName p name := by
  have hfile : fileName (dir ++ p) = fileName p := by
    unfold fileName
    rw [List.getLast?_append_of_ne_nil dir h]
  unfold setFileName join
  rw [hfile, List.dropLast_append_of_ne_nil h]
  split <;> exact List.append_assoc _ _ _

/-! ### Texts with separators -/

/-- The part of a text behind the last separator. -/
def base (s : String) : String := String.ofList ((s.toList.splitOn '/').getLast?.getD [])

/-- The components of a text before the last separator. -/
def parents (s : String) : Path :=
  ((s.toList.splitOn '/').dropLast.map String.ofList).filter fun name => name ≠ "" && name ≠ "."

theorem splitOn_append {sep : Char} (xs : List Char) {ys : List Char} (h : sep ∉ ys) :
    ∃ init last, xs.splitOn sep = init ++ [last] ∧
      (xs ++ ys).splitOn sep = init ++ [last ++ ys] := by
  induction xs with
  | nil => exact ⟨[], [], by simp, by simp [List.splitOn_eq_singleton h]⟩
  | cons x xs ih =>
    obtain ⟨init, last, hxs, hys⟩ := ih
    rw [List.cons_append, List.splitOn_cons_eq_if_modifyHead, List.splitOn_cons_eq_if_modifyHead,
      hxs, hys]
    split
    · exact ⟨[] :: init, last, rfl, rfl⟩
    · cases init with
      | nil => exact ⟨[], x :: last, rfl, rfl⟩
      | cons first init => exact ⟨(x :: first) :: init, last, rfl, rfl⟩

/-- A text that is appended changes nothing before the last separator. -/
theorem components_append_eq (s : String) {t : String} (hsep : '/' ∉ t.toList) :
    components (s ++ t)
      = parents s ++ [base s ++ t].filter fun name => name ≠ "" && name ≠ "." := by
  obtain ⟨init, last, hs, hst⟩ := splitOn_append s.toList hsep
  have hlast : base s ++ t = String.ofList (last ++ t.toList) := by
    unfold base
    rw [hs, List.getLast?_concat, Option.getD_some, String.ofList_append, String.ofList_toList]
  unfold components parents
  rw [String.toList_append, hst, hs, List.map_append, List.filter_append, List.dropLast_concat,
    hlast]
  rfl

/-- A text that is appended to a last component changes nothing before it. -/
theorem components_append (s : String) {t : String} (hsep : '/' ∉ t.toList)
    (hname : base s ++ t ≠ "" ∧ base s ++ t ≠ ".") :
    components (s ++ t) = parents s ++ [base s ++ t] := by
  rw [components_append_eq s hsep, List.filter_singleton]
  simp only [hname.1, hname.2, ne_eq, not_false_eq_true, decide_true, Bool.and_self,
    cond_true]

/-- An extension has no separator. -/
theorem not_mem_extension {p : Path} {ext : String} (hp : ∀ name ∈ p, IsName name)
    (h : p.extension = some ext) : '/' ∉ ext.toList := by
  have hname : '/' ∉ (p.fileName.getD "").toList := by
    cases hfile : p.fileName with
    | none => simp
    | some name =>
      obtain ⟨hlast, -⟩ := Option.filter_eq_some_iff.mp hfile
      exact (hp name (List.mem_of_getLast? hlast)).2.2
  unfold extension at h
  split at h
  · cases h
  · cases h
  · cases h
  · next first parts hne hsplit =>
    obtain ⟨last, hlast, rfl⟩ := Option.map_eq_some_iff.mp h
    have hmem : last ∈ (p.fileName.getD "").toList.splitOn '.' := by
      rw [hsplit]
      exact List.mem_cons_of_mem _ (List.mem_of_getLast? hlast)
    rw [String.toList_ofList]
    exact fun hsep => hname ((splitOn_part hmem).2 _ hsep)

end Path

/-! ## Files -/

/-- The contents of the files are of the type `B`. -/
structure FileSystem (B : Type) where
  dirs : List Path
  files : AList fun _ : Path => B

namespace FileSystem

variable {B : Type}

def empty : FileSystem B := ⟨[], ∅⟩

def read (fs : FileSystem B) (p : Path) : Option B := fs.files.lookup p

def createDirAll (fs : FileSystem B) (p : Path) : FileSystem B :=
  { fs with dirs := p.inits ++ fs.dirs }

/-- `none` if the path cannot be written, as its directory is missing or as it is a directory. -/
def write (fs : FileSystem B) (p : Path) (contents : B) : Option (FileSystem B) :=
  if p.dropLast ∈ fs.dirs ∧ p ∉ fs.dirs then
    some { fs with files := fs.files.insert p contents }
  else none

/-- `remove_file`, whose error is ignored. -/
def remove (fs : FileSystem B) (p : Path) : FileSystem B := { fs with files := fs.files.erase p }

/-- `rename` of a file. `none` if there is no file, or if the new path cannot be written. -/
def rename (fs : FileSystem B) (src dst : Path) : Option (FileSystem B) :=
  (fs.read src).bind fun contents => (fs.remove src).write dst contents

/-! ### Paths with `..`

  The operations follow the `..` of a path; the directories that it passes are not looked at. -/

def readAt (fs : FileSystem B) (p : Path) : Option B := fs.read p.resolve

def writeAt (fs : FileSystem B) (p : Path) (contents : B) : Option (FileSystem B) :=
  fs.write p.resolve contents

def removeAt (fs : FileSystem B) (p : Path) : FileSystem B := fs.remove p.resolve

def renameAt (fs : FileSystem B) (src dst : Path) : Option (FileSystem B) :=
  fs.rename src.resolve dst.resolve

theorem read_remove (fs : FileSystem B) (p q : Path) :
    (fs.remove p).read q = if q = p then none else fs.read q := by
  unfold remove read
  split
  · next h =>
    subst h
    exact AList.lookup_erase _ _
  · next h => exact AList.lookup_erase_ne h

theorem write_eq_some {fs fs' : FileSystem B} {p : Path} {contents : B}
    (h : fs.write p contents = some fs') :
    fs'.dirs = fs.dirs ∧ ∀ q, fs'.read q = if q = p then some contents else fs.read q := by
  unfold write at h
  split at h
  · obtain rfl := Option.some.inj h
    refine ⟨rfl, fun q => ?_⟩
    unfold read
    split
    · next hq =>
      subst hq
      exact AList.lookup_insert _
    · next hq => exact AList.lookup_insert_ne hq
  · cases h

/-- A path that has been written can be written again. -/
theorem write_again {fs fs' : FileSystem B} {p : Path} {contents : B}
    (h : fs.write p contents = some fs') (contents' : B) : fs'.write p contents' ≠ none := by
  have hdirs := (write_eq_some h).1
  unfold write at h ⊢
  rw [hdirs]
  split at h
  · next hp => simp [hp]
  · cases h

/-- At most the given paths have been removed, or written. -/
def Changes (removed written : List Path) (fs fs' : FileSystem B) : Prop :=
  ∀ p, fs'.read p = fs.read p ∨ (p ∈ removed ∧ fs'.read p = none) ∨
    (p ∈ written ∧ (fs'.read p).isSome)

namespace Changes

variable {removed written removed' written' : List Path} {fs fs' fs'' : FileSystem B}

theorem refl (removed written : List Path) (fs : FileSystem B) : Changes removed written fs fs :=
  fun _ => .inl rfl

theorem trans (h : Changes removed written fs fs') (h' : Changes removed written fs' fs'') :
    Changes removed written fs fs'' := by
  intro p
  rcases h' p with heq | hchanged
  · rw [heq]
    exact h p
  · exact .inr hchanged

theorem mono (h : Changes removed written fs fs') (hremoved : ∀ p ∈ removed, p ∈ removed')
    (hwritten : ∀ p ∈ written, p ∈ written') : Changes removed' written' fs fs' := by
  intro p
  rcases h p with heq | ⟨hmem, hnone⟩ | ⟨hmem, hsome⟩
  · exact .inl heq
  · exact .inr (.inl ⟨hremoved p hmem, hnone⟩)
  · exact .inr (.inr ⟨hwritten p hmem, hsome⟩)

theorem remove (fs : FileSystem B) {p : Path} (hp : p ∈ removed) (written : List Path) :
    Changes removed written fs (fs.remove p) := by
  intro q
  rw [read_remove]
  split
  · next h => exact .inr (.inl ⟨h ▸ hp, rfl⟩)
  · exact .inl rfl

theorem write {p : Path} {contents : B} (h : fs.write p contents = some fs') (hp : p ∈ written)
    (removed : List Path) : Changes removed written fs fs' := by
  intro q
  rw [(write_eq_some h).2]
  split
  · next h => exact .inr (.inr ⟨h ▸ hp, rfl⟩)
  · exact .inl rfl

theorem rename {src dst : Path} (h : fs.rename src dst = some fs') (hsrc : src ∈ removed)
    (hdst : dst ∈ written) : Changes removed written fs fs' := by
  obtain ⟨contents, -, hwrite⟩ := Option.bind_eq_some_iff.mp h
  exact (remove fs hsrc written).trans (write hwrite hdst removed)

/-- A path that is not written has at most been removed. -/
theorem read_of_not_written (h : Changes removed written fs fs') {p : Path} (hp : p ∉ written) :
    fs'.read p = fs.read p ∨ fs'.read p = none := by
  rcases h p with heq | ⟨-, hnone⟩ | ⟨hmem, -⟩
  · exact .inl heq
  · exact .inr hnone
  · exact absurd hmem hp

/-- A file that is not removed is still there. -/
theorem isSome_of_not_removed (h : Changes removed written fs fs') {p : Path} (hp : p ∉ removed)
    (hfile : (fs.read p).isSome) : (fs'.read p).isSome := by
  rcases h p with heq | ⟨hmem, -⟩ | ⟨-, hsome⟩
  · rwa [heq]
  · exact absurd hmem hp
  · exact hsome

end Changes

end FileSystem

end GoudaMatrix.Lib
