import Mathlib.Data.List.Induction

/-! Paths on the SD card, relative to a current directory: `rustypi-core/src/path.rs`. A path is
its characters, and resolving one is walking its parts from a stack of parts.
-/

namespace RustyPi.Path

/-- What a part of a path does to the parts before it. -/
def enter (parts : List (List Char)) (part : List Char) : List (List Char) :=
  if part = [] ∨ part = ['.'] then parts
  else if part = ['.', '.'] then parts.dropLast
  else parts ++ [part]

/-- Each part with `/` before it, or just `/`. -/
def join (parts : List (List Char)) : List Char :=
  let resolved := parts.flatMap (fun part => '/' :: part)
  if resolved = [] then ['/'] else resolved

/-- `path` as an absolute path, from the root if it starts with `/`, else from `cwd`. -/
def resolve (cwd path : List Char) : List Char :=
  let start := if path.head? = some '/' then [] else cwd
  join ((start.splitOn '/' ++ path.splitOn '/').foldl enter [])

/-- An absolute path without empty parts, `.` or `..`, or just `/`. -/
def Canonical (path : List Char) : Prop :=
  path = ['/']
  ∨ ∃ parts ≠ [],
      path.splitOn '/' = [] :: parts
      ∧ ∀ part ∈ parts, part ≠ [] ∧ part ≠ ['.'] ∧ part ≠ ['.', '.']

/-- The parts after walking `path` from `parts`. -/
def walk (parts : List (List Char)) (path : List Char) : List (List Char) :=
  (path.splitOn '/').foldl enter parts

theorem walk_append (parts : List (List Char)) (first second : List Char)
    : walk parts (first ++ '/' :: second) = walk (walk parts first) second := by
  rw [walk, List.splitOn_append_cons_self, List.foldl_append]
  rfl

/-- A part that a walk keeps. -/
structure Name (part : List Char) : Prop where
  nonempty : part ≠ []
  notHere : part ≠ ['.']
  notUp : part ≠ ['.', '.']
  whole : '/' ∉ part

variable {parts : List (List Char)}

theorem whole_of_mem_splitOn {part path : List Char} (member : part ∈ path.splitOn '/')
    : '/' ∉ part := by
  induction path generalizing part with
  | nil => simp_all
  | cons char rest ih =>
    rw [List.splitOn_cons_eq_if_modifyHead] at member
    cases found : rest.splitOn '/' with
    | nil => exact absurd found (List.splitOn_ne_nil _ _)
    | cons first others => grind [List.modifyHead_cons]

section Names

variable (names : ∀ part ∈ parts, Name part)
include names

theorem names_walk (path : List Char)
    : ∀ part ∈ walk parts path, Name part := by
  have wholes : ∀ part ∈ path.splitOn '/', '/' ∉ part := fun _ => whole_of_mem_splitOn
  unfold walk
  generalize path.splitOn '/' = list at wholes
  induction list generalizing parts with
  | nil => exact names
  | cons first rest ih =>
    refine ih (fun part member => ?_) (fun part member => wholes part (.tail _ member))
    unfold enter at member
    split_ifs at member with skipped up
    · exact names part member
    · exact names part (List.dropLast_subset _ member)
    · rcases List.mem_append.mp member with old | new
      · exact names part old
      · obtain rfl := List.mem_singleton.mp new
        exact ⟨fun empty => skipped (.inl empty), fun here => skipped (.inr here), up,
          wholes part List.mem_cons_self⟩

/-- By induction from the last part on, since a `/` splits what is before it from what follows. -/
theorem splitOn_flatMap
    : (parts.flatMap (fun part => '/' :: part)).splitOn '/' = [] :: parts := by
  induction parts using List.reverseRecOn with
  | nil => rfl
  | append_singleton before last ih =>
    rw [List.flatMap_append, List.flatMap_singleton, List.splitOn_append_cons_self,
      ih (fun part member => names part (by simp [member])),
      List.splitOn_eq_singleton (names last (by simp)).whole]
    rfl

theorem foldl_enter (before : List (List Char))
    : parts.foldl enter before = before ++ parts := by
  induction parts generalizing before with
  | nil => simp
  | cons first rest ih =>
    obtain ⟨nonempty, notHere, notUp, _⟩ := names first List.mem_cons_self
    have entered : enter before first = before ++ [first] := by
      simp [enter, nonempty, notHere, notUp]
    rw [List.foldl_cons, entered, ih (fun part member => names part (.tail _ member)),
      List.append_assoc]
    rfl

/-- A path that is joined from names: absolute, canonical, and walked to those names. -/
theorem join_spec
    : (join parts).head? = some '/' ∧ Canonical (join parts) ∧ walk [] (join parts) = parts := by
  have split := splitOn_flatMap names
  cases parts with
  | nil => exact ⟨rfl, .inl rfl, rfl⟩
  | cons first rest =>
    refine ⟨rfl, .inr ⟨first :: rest, List.cons_ne_nil _ _, split, fun part member => ?_⟩, ?_⟩
    · exact ⟨(names part member).nonempty, (names part member).notHere, (names part member).notUp⟩
    · exact (congrArg (List.foldl enter []) split).trans (foldl_enter names [])

end Names

theorem resolve_eq (cwd path : List Char)
    : resolve cwd path
      = join (walk (if path.head? = some '/' then [] else walk [] cwd) path) := by
  rw [resolve, List.foldl_append]
  split <;> rfl

/-- A resolved path is canonical, it resolves to itself from anywhere, and going on from it is
resolving the longer path.
-/
theorem resolve_canonical (cwd path : List Char)
    : (resolve cwd path).head? = some '/'
      ∧ Canonical (resolve cwd path)
      ∧ (∀ other, resolve other (resolve cwd path) = resolve cwd path)
      ∧ ∀ more,
          path ≠ []
          → more.head? ≠ some '/'
          → resolve (resolve cwd path) more = resolve cwd (path ++ '/' :: more) := by
  have names : ∀ part ∈ walk (if path.head? = some '/' then [] else walk [] cwd) path,
      Name part := by
    refine names_walk ?_ path
    split
    · simp
    · exact names_walk (by simp) cwd
  obtain ⟨absolute, canonical, walked⟩ := join_spec names
  rw [← resolve_eq] at absolute canonical walked
  refine ⟨absolute, canonical, fun other => ?_, fun more nonempty relative => ?_⟩
  · rw [resolve_eq other, if_pos absolute, walked, ← resolve_eq]
  · have head : (path ++ '/' :: more).head? = path.head? := by
      cases path with
      | nil => exact absurd rfl nonempty
      | cons => rfl
    rw [resolve_eq (resolve cwd path), if_neg relative, walked, resolve_eq cwd (path ++ _), head,
      walk_append]

/-- Up from a subdirectory and into another one. -/
theorem resolve_canonical_of_sibling
    : resolve (resolve "/docs".toList "a/..".toList) "b".toList
      = resolve "/docs".toList "a/../b".toList :=
  (resolve_canonical "/docs".toList "a/..".toList).2.2.2 "b".toList (by decide) (by decide)

end RustyPi.Path
