import MsysCore.Python.Values

/-!
# POSIX paths

`pathlib.PurePosixPath`: a root and the parts below it. A path that is parsed has no empty part
and no part `.`; `..` stays. The text of an absolute path determines it.
-/

namespace MsysCore.Python

/-- One component of a parsed path. -/
def IsPart (p : PyStr) : Prop := p ≠ [] ∧ p ≠ [46] ∧ 47 ∉ p

instance (p : PyStr) : Decidable (IsPart p) := inferInstanceAs (Decidable (_ ∧ _))

structure PosixPath where
  root : PyStr
  parts : List PyStr
  root_slashes : root ∈ [[], [47], [47, 47]]
  parts_form : ∀ p ∈ parts, IsPart p
  deriving DecidableEq

namespace PosixPath

/-- `Path(".")`, which has no part at all. -/
def dot : PosixPath := ⟨[], [], by simp, by simp⟩

/-- `str(path)` -/
def str (path : PosixPath) : PyStr :=
  if path.root = [] ∧ path.parts = [] then [46] else path.root ++ [47].intercalate path.parts

/-- `path.parent`; a path without parts is its own. -/
def parent (path : PosixPath) : PosixPath where
  root := path.root
  parts := path.parts.dropLast
  root_slashes := path.root_slashes
  parts_form p hp := path.parts_form p (List.mem_of_mem_dropLast hp)

/-- `path.absolute()` -/
def absolute (cwd path : PosixPath) : PosixPath :=
  if path.root = [] then
    { root := cwd.root
      parts := cwd.parts ++ path.parts
      root_slashes := cwd.root_slashes
      parts_form := by
        intro p hp
        exact (List.mem_append.mp hp).elim (cwd.parts_form p) (path.parts_form p) }
  else path

/-- `path.joinpath(*names)`, for names of one part. -/
def joinpath (path : PosixPath) (names : List PyStr) (h : ∀ p ∈ names, IsPart p) : PosixPath where
  root := path.root
  parts := path.parts ++ names
  root_slashes := path.root_slashes
  parts_form p hp := (List.mem_append.mp hp).elim (path.parts_form p) (h p)

/-- Whether `path.relative_to(other)` returns. -/
def isRelativeTo (path other : PosixPath) : Bool :=
  path.root = other.root && other.parts.isPrefixOf path.parts

theorem root_absolute {cwd : PosixPath} (h : cwd.root ≠ []) (path : PosixPath) :
    (absolute cwd path).root ≠ [] := by
  unfold absolute
  split_ifs with hroot
  · exact h
  · exact hroot

/-- The parent of an absolute path is the absolute parent, unless there is no part to drop. -/
theorem absolute_parent (cwd : PosixPath) {path : PosixPath} (h : path ≠ dot) :
    absolute cwd path.parent = (absolute cwd path).parent := by
  by_cases hroot : path.root = []
  · have hparts : path.parts ≠ [] := by
      intro hparts
      obtain ⟨root, parts, hslashes, hform⟩ := path
      subst hroot hparts
      exact h rfl
    simp only [absolute, hroot, if_true, parent, mk.injEq, true_and]
    exact (List.dropLast_append_of_ne_nil hparts).symm
  · have hparent : path.parent.root ≠ [] := hroot
    rw [absolute, if_neg hparent, absolute, if_neg hroot]

/-- Only the empty path and the working directory are the working directory when absolute. -/
theorem eq_of_absolute_eq_cwd {cwd path : PosixPath} (h : absolute cwd path = cwd) :
    path = dot ∨ path = cwd := by
  unfold absolute at h
  split_ifs at h with hroot
  · have hparts : cwd.parts ++ path.parts = cwd.parts := congrArg parts h
    refine .inl ?_
    obtain ⟨root, parts, hslashes, hform⟩ := path
    have hnil : parts = [] := List.append_right_eq_self.mp hparts
    subst hroot hnil
    rfl
  · exact .inr h

theorem absolute_dot (cwd : PosixPath) : absolute cwd dot = cwd := by
  simp [absolute, dot]

theorem root_eq_takeWhile (path : PosixPath) :
    (path.root ++ [47].intercalate path.parts).takeWhile (· = 47) = path.root := by
  have hroot : ∀ c ∈ path.root, decide (c = 47) = true := by
    have hmem := path.root_slashes
    generalize path.root = root at hmem
    revert root
    decide
  rw [List.takeWhile_append_of_pos hroot]
  cases hparts : path.parts with
  | nil => simp
  | cons p ps =>
    obtain ⟨hne, -, hslash⟩ := path.parts_form p (by simp [hparts])
    cases p with
    | nil => exact absurd rfl hne
    | cons c rest =>
      have hc : c ≠ 47 := fun h => hslash (h ▸ List.mem_cons_self)
      cases ps with
      | nil => simp [List.intercalate_singleton, hc]
      | cons q qs => simp [List.intercalate_cons_cons, hc]

/-- The text of an absolute path determines the path. -/
theorem str_injective {p q : PosixPath} (hp : p.root ≠ []) (hq : q.root ≠ [])
    (h : p.str = q.str) : p = q := by
  rw [str, if_neg (fun hand => hp hand.1), str, if_neg (fun hand => hq hand.1)] at h
  have hroot : p.root = q.root := by
    rw [← root_eq_takeWhile p, h, root_eq_takeWhile q]
  have hjoin : [47].intercalate p.parts = [47].intercalate q.parts := by
    rw [hroot] at h
    exact List.append_cancel_left h
  have hnil : ∀ path : PosixPath, [47].intercalate path.parts = [] → path.parts = [] := by
    intro path hempty
    cases hparts : path.parts with
    | nil => rfl
    | cons r rs =>
      have hne := (path.parts_form r (by simp [hparts])).1
      rw [hparts] at hempty
      cases rs with
      | nil => exact absurd (List.intercalate_singleton.symm.trans hempty) hne
      | cons s rs =>
        rw [List.intercalate_cons_cons] at hempty
        simp at hempty
  have hparts : p.parts = q.parts := by
    by_cases hempty : p.parts = []
    · rw [hempty] at hjoin ⊢
      exact (hnil q hjoin.symm).symm
    · have hempty' : q.parts ≠ [] := by
        intro hq
        rw [hq] at hjoin
        exact hempty (hnil p hjoin)
      rw [← List.splitOn_intercalate 47 (fun r hr => (p.parts_form r hr).2.2) hempty, hjoin,
        List.splitOn_intercalate 47 (fun r hr => (q.parts_form r hr).2.2) hempty']
  cases p
  cases q
  simp only at hroot hparts
  subst hroot hparts
  rfl

end PosixPath

end MsysCore.Python
