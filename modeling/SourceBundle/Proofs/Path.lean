/-
# Normal forms of paths

The normal form of a path is its own normal form.  A workspace in memory keeps its files under normal
forms without slashes in front, of which a normal form has two at most: so each place of a workspace
goes by three normal forms only.  What is taken relative to the directory of a path without a slash in
front has none either, so that its normal form is a place.
-/
import SourceBundle.Proofs.Text.Cut
import SourceBundle.Workspace.Memory
import Mathlib.Tactic.IntervalCases

namespace SourceBundle

namespace Text

namespace Path

/-! ## The stack of components -/

/-- A component that stands in a normal form. -/
structure Proper (p : List Char) : Prop where
  nonempty : p ≠ []
  noDot : p ≠ ['.']
  noSlash : '/' ∉ p

/-- A stack of components as it arises: two dots stand only below other two dots, and at the root they
do not stand at all. -/
def Stacked (rooted : Bool) : List (List Char) → Prop
  | [] => True
  | p :: ps => Proper p ∧ (p = ['.', '.'] → rooted = false ∧ ∀ q ∈ ps, q = ['.', '.']) ∧
    Stacked rooted ps

variable {rooted : Bool} {stack : List (List Char)} {p : List Char}

lemma stacked_walk (h : Stacked rooted stack) (hp : '/' ∉ p) :
    Stacked rooted (walk rooted stack p) := by
  unfold walk
  split
  · exact h
  · next hne =>
    obtain ⟨hnil, hdot⟩ := not_or.mp hne
    have hproper : Proper p := ⟨hnil, hdot, hp⟩
    split
    · next hdots =>
      cases stack with
      | nil =>
        cases rooted with
        | true => trivial
        | false => exact ⟨hproper, fun _ => ⟨rfl, nofun⟩, trivial⟩
      | cons q qs =>
        dsimp only
        split
        · next hq =>
          obtain ⟨hr, hqs⟩ := h.2.1 hq
          exact ⟨hproper, fun _ => ⟨hr, List.forall_mem_cons.mpr ⟨hq, hqs⟩⟩, h⟩
        · exact h.2.2
    · next hdots => exact ⟨hproper, fun he => absurd he hdots, h⟩

/-- To walk the components of a stack again builds the same stack. -/
lemma foldl_walk_reverse (h : Stacked rooted stack) :
    stack.reverse.foldl (walk rooted) [] = stack := by
  induction stack with
  | nil => rfl
  | cons p ps ih =>
    obtain ⟨hproper, hdots, hps⟩ := h
    rw [List.reverse_cons, List.foldl_append, ih hps, List.foldl_cons, List.foldl_nil]
    unfold walk
    rw [if_neg (not_or.mpr ⟨hproper.nonempty, hproper.noDot⟩)]
    split
    · next he =>
      obtain ⟨hr, hall⟩ := hdots he
      cases ps with
      | nil => simp [hr]
      | cons q qs => simp [hall q List.mem_cons_self]
    · rfl

lemma stacked_foldl {ps : List (List Char)} (h : Stacked rooted stack) (hps : ∀ p ∈ ps, '/' ∉ p) :
    Stacked rooted (ps.foldl (walk rooted) stack) := by
  induction ps generalizing stack with
  | nil => exact h
  | cons p ps ih =>
    exact ih (stacked_walk h (hps p List.mem_cons_self)) fun q hq => hps q (List.mem_cons_of_mem p hq)

lemma Stacked.proper (h : Stacked rooted stack) (hp : p ∈ stack) : Proper p := by
  induction stack with
  | nil => exact nomatch hp
  | cons q qs ih =>
    rcases List.mem_cons.mp hp with rfl | hp
    · exact h.1
    · exact ih h.2.2 hp

/-! ## The written form -/

/-- Some slashes and some components, written out. -/
def written (n : Nat) (ps : List (List Char)) : List Char :=
  List.replicate n '/' ++ List.intercalate ['/'] ps

lemma rootSlashes_le (cs : List Char) : rootSlashes cs ≤ 2 := by
  unfold rootSlashes
  split <;> decide

/-- Proper components, written out, do not begin with a slash. -/
lemma head?_intercalate {ps : List (List Char)} (h : ∀ p ∈ ps, Proper p) :
    (List.intercalate ['/'] ps).head? ≠ some '/' := by
  cases ps with
  | nil => exact nofun
  | cons p ps =>
    obtain ⟨hnil, -, hslash⟩ := h p List.mem_cons_self
    obtain ⟨c, cs, rfl⟩ := List.exists_cons_of_ne_nil hnil
    have hc : c ≠ '/' := fun he => hslash (he ▸ List.mem_cons_self)
    cases ps with
    | nil => simpa [List.intercalate] using hc
    | cons q qs => simpa [List.intercalate_cons_cons] using hc

lemma rootSlashes_replicate_append {n : Nat} {cs : List Char} (hn : n ≤ 2)
    (hcs : cs.head? ≠ some '/') : rootSlashes (List.replicate n '/' ++ cs) = n := by
  cases cs with
  | nil => interval_cases n <;> rfl
  | cons c cs =>
    have hc : c ≠ '/' := fun he => hcs (he ▸ rfl)
    interval_cases n <;> simp [rootSlashes, hc]

lemma pieces_replicate_append (n : Nat) (cs : List Char) :
    pieces '/' (List.replicate n '/' ++ cs) = List.replicate n [] ++ pieces '/' cs := by
  induction n with
  | zero => rfl
  | succ n ih =>
    rw [List.replicate_succ, List.cons_append, pieces, if_pos rfl, ih]
    rfl

lemma foldl_walk_pieces {ps : List (List Char)} (h : ∀ p ∈ ps, Proper p) :
    (pieces '/' (List.intercalate ['/'] ps)).foldl (walk rooted) [] = ps.foldl (walk rooted) [] := by
  cases ps with
  | nil => rfl
  | cons p ps =>
    rw [pieces_eq_splitOn, List.splitOn_intercalate '/' (fun q hq => (h q hq).noSlash)
      (List.cons_ne_nil p ps)]

lemma foldl_walk_replicate (n : Nat) (ps : List (List Char)) :
    (List.replicate n [] ++ ps).foldl (walk rooted) [] = ps.foldl (walk rooted) [] := by
  induction n with
  | zero => rfl
  | succ n ih => exact ih

lemma stacked_components (cs : List Char) :
    Stacked (rootSlashes cs != 0) (components cs).reverse := by
  rw [components, List.reverse_reverse]
  exact stacked_foldl trivial fun _ => not_mem_pieces

lemma proper_components {cs : List Char} (hp : p ∈ components cs) : Proper p :=
  (stacked_components cs).proper (List.mem_reverse.mpr hp)

/-- What the normal form is written from can be read off it. -/
lemma components_written (cs : List Char) :
    rootSlashes (written (rootSlashes cs) (components cs)) = rootSlashes cs ∧
      components (written (rootSlashes cs) (components cs)) = components cs := by
  have hproper : ∀ p ∈ components cs, Proper p := fun p => proper_components
  have hroot : rootSlashes (written (rootSlashes cs) (components cs)) = rootSlashes cs :=
    rootSlashes_replicate_append (rootSlashes_le cs) (head?_intercalate hproper)
  refine ⟨hroot, ?_⟩
  conv_lhs => rw [components, hroot, written, pieces_replicate_append, foldl_walk_replicate,
    foldl_walk_pieces hproper, ← List.reverse_reverse (components cs)]
  rw [foldl_walk_reverse (stacked_components cs), List.reverse_reverse]

theorem normalChars_normalChars (cs : List Char) : normalChars (normalChars cs) = normalChars cs := by
  obtain ⟨hroot, hcomponents⟩ := components_written cs
  have hwritten : normalChars cs =
      if (written (rootSlashes cs) (components cs)).isEmpty then ['.']
      else written (rootSlashes cs) (components cs) := rfl
  rw [hwritten]
  split
  · rfl
  · next hne =>
    show (if (written _ _).isEmpty then ['.'] else written _ _) = _
    rw [hroot, hcomponents, if_neg hne]

/-- The normal form of a path is its own normal form. -/
theorem normal_normal (path : String) : normal (normal path) = normal path := by
  simp only [normal, String.toList_ofList, normalChars_normalChars]

/-- Behind the slashes in front, proper components are written out as they are. -/
lemma dropWhile_written {ps : List (List Char)} (h : ∀ p ∈ ps, Proper p) (n : Nat) :
    (written n ps).dropWhile (· == '/') = List.intercalate ['/'] ps := by
  have hhead := head?_intercalate h
  rw [written, List.dropWhile_append_of_pos (by simp)]
  cases hcs : List.intercalate ['/'] ps with
  | nil => rfl
  | cons c cs =>
    rw [hcs] at hhead
    exact List.dropWhile_cons_of_neg (by simpa using hhead)

/-- A normal form begins with two slashes at most. -/
lemma exists_slashes (path : String) :
    ∃ n ≤ 2, (normal path).toList =
      List.replicate n '/' ++ (normal path).toList.dropWhile (· == '/') := by
  rw [normal, String.toList_ofList]
  show ∃ n ≤ 2, (if (written _ _).isEmpty then ['.'] else written _ _) = _ ++
    List.dropWhile _ (if (written _ _).isEmpty then ['.'] else written _ _)
  split
  · exact ⟨0, Nat.zero_le 2, rfl⟩
  · refine ⟨_, rootSlashes_le path.toList, ?_⟩
    rw [dropWhile_written fun _ => proper_components, written]

/-! ## Paths without a slash in front -/

/-- A path begins with its directory part. -/
lemma parentChars_prefix (cs : List Char) : parentChars cs <+: cs := by
  unfold parentChars
  split
  · exact List.nil_prefix
  · next head tail hcut =>
    have hcs := eq_of_cutLast? hcut
    split
    · exact ⟨tail, by rw [hcs, List.append_assoc]; rfl⟩
    · have hhead : (head.reverse.dropWhile (· == '/')).reverse <+: head := by
        rw [← List.reverse_suffix, List.reverse_reverse]
        exact List.dropWhile_suffix _
      exact hhead.trans ⟨_, hcs.symm⟩

lemma head?_of_prefix {cs ds : List Char} (h : cs <+: ds) (hds : ds.head? ≠ some '/') :
    cs.head? ≠ some '/' := by
  obtain ⟨rest, rfl⟩ := h
  cases cs with
  | nil => exact nofun
  | cons c cs => exact hds

lemma head?_joinChars {dir path : List Char} (hdir : dir.head? ≠ some '/') (hpath : path.head? ≠ some '/') :
    (joinChars dir path).head? ≠ some '/' := by
  rw [joinChars, if_neg hpath]
  cases dir with
  | nil => exact hpath
  | cons c dir =>
    split
    · exact hdir
    · exact hdir

lemma head?_normalChars {cs : List Char} (h : cs.head? ≠ some '/') : (normalChars cs).head? ≠ some '/' := by
  have hroot : rootSlashes cs = 0 := rootSlashes_replicate_append (Nat.zero_le 2) h
  show (if (written _ _).isEmpty then ['.'] else written _ _).head? ≠ some '/'
  split
  · decide
  · rw [hroot]
    exact head?_intercalate fun _ => proper_components

end Path

end Text

namespace Workspace.Memory

open Text

/-- The normal forms that lead to a place of a workspace. -/
def spellings (place : String) : List String := [place, "/" ++ place, "//" ++ place]

/-- A path in normal form is one of those that lead to its place. -/
theorem mem_spellings (path : String) : Path.normal path ∈ spellings (normal (Path.normal path)) := by
  obtain ⟨n, hn, hslashes⟩ := Path.exists_slashes path
  have hplace : normal (Path.normal path) =
      String.ofList ((Path.normal path).toList.dropWhile (· == '/')) := by
    rw [normal, Path.normal_normal]
    split
    · next hempty =>
      rw [String.isEmpty_iff.mp hempty]
      rfl
    · rfl
  have hpath : Path.normal path =
      String.ofList (List.replicate n '/') ++ normal (Path.normal path) := by
    rw [hplace, ← String.ofList_append, ← hslashes, String.ofList_toList]
  generalize normal (Path.normal path) = place at hpath
  rw [hpath]
  interval_cases n
  · simp [spellings]
  · exact List.mem_cons_of_mem _ List.mem_cons_self
  · exact List.mem_cons_of_mem _ (List.mem_cons_of_mem _ List.mem_cons_self)

/-- A path is the one under which a workspace in memory keeps its file. -/
def IsPlace (path : String) : Prop := normal path = path

instance (path : String) : Decidable (IsPlace path) := inferInstanceAs (Decidable (_ = _))

lemma head?_of_isPlace {path : String} (h : IsPlace path) : path.toList.head? ≠ some '/' := by
  rw [IsPlace, normal] at h
  split at h
  · rw [← h]
    exact nofun
  · intro hslash
    have hnot := List.head?_dropWhile_not (· == '/') (Path.normal path).toList
    rw [← String.toList_ofList (l := (Path.normal path).toList.dropWhile (· == '/')), h, hslash] at hnot
    exact absurd hnot (by decide)

/-- A normal form without a slash in front is a place. -/
lemma isPlace_normal {path : String} (h : (Path.normal path).toList.head? ≠ some '/') :
    IsPlace (Path.normal path) := by
  rw [IsPlace, normal, Path.normal_normal]
  split
  · next hempty => rw [String.isEmpty_iff.mp hempty]
  · have hkept : (Path.normal path).toList.dropWhile (· == '/') = (Path.normal path).toList := by
      cases hcs : (Path.normal path).toList with
      | nil => rfl
      | cons c cs =>
        rw [hcs] at h
        exact List.dropWhile_cons_of_neg (by simpa using h)
    rw [hkept, String.ofList_toList]

end Workspace.Memory

end SourceBundle
