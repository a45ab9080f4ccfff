/-
# Paths nested in a directory

Two dots in a path lead out of a directory, so a path without them stays inside.  What is taken relative to a
directory lies strictly below it in normal form, if the directory ends with a name, and if the path has some
component but none of two dots.  Empty components and single dots do no harm.
-/
import Mathlib.Data.List.Infix
import SourceBundle.Proofs.Path.Below

namespace SourceBundle.Text.Path

variable {rooted : Bool} {stack ps : List (List Char)} {p dir rel : List Char}

/-- A component that is a name: it is neither empty nor dots. -/
structure IsName (p : List Char) : Prop extends Proper p where
  noDots : p ≠ ['.', '.']

/-- The names among some components. -/
def namesOf (ps : List (List Char)) : List (List Char) := ps.filter fun p => p ≠ [] ∧ p ≠ ['.']

/-- In normal form, a path goes on behind a directory with at least one name, and with names only. -/
def StrictlyBelow (dir path : String) : Prop :=
  ∃ names, names ≠ [] ∧ (∀ p ∈ names, IsName p) ∧
    (normal path).toList = (normal dir).toList ++ '/' :: List.intercalate ['/'] names

/-! ## Walking names -/

lemma isName_of_mem_namesOf (hdots : ['.', '.'] ∉ ps) (hslash : ∀ q ∈ ps, '/' ∉ q)
    (hp : p ∈ namesOf ps) : IsName p := by
  obtain ⟨hmem, hkind⟩ := List.mem_filter.mp hp
  simp only [decide_eq_true_eq] at hkind
  refine ⟨⟨hkind.1, hkind.2, hslash p hmem⟩, ?_⟩
  rintro rfl
  exact hdots hmem

lemma walk_of_isName (hp : IsName p) : walk rooted stack p = p :: stack := by
  unfold walk
  rw [if_neg (not_or.mpr ⟨hp.nonempty, hp.noDot⟩), if_neg hp.noDots]

/-- Without two dots all names are walked to, and none is left. -/
lemma foldl_walk_names (hdots : ['.', '.'] ∉ ps) :
    ps.foldl (walk rooted) stack = (namesOf ps).reverse ++ stack := by
  induction ps generalizing stack with
  | nil => rfl
  | cons p ps ih =>
    rw [List.mem_cons, not_or] at hdots
    rw [List.foldl_cons, ih hdots.2]
    unfold walk
    split
    · next hkind =>
      have hskip : namesOf (p :: ps) = namesOf ps := by
        rcases hkind with rfl | rfl <;> simp [namesOf]
      rw [hskip]
    · next hkind =>
      have hname : namesOf (p :: ps) = p :: namesOf ps := by
        rw [not_or] at hkind
        simp [namesOf, hkind]
      rw [hname, if_neg (Ne.symm hdots.1)]
      simp

/-! ## Nested paths -/

/-- A path begins with as many slashes as its directory, if that is more than slashes. -/
lemma rootSlashes_append {c : Char} (hc : c ∈ dir) (hslash : c ≠ '/') (cs : List Char) :
    rootSlashes (dir ++ cs) = rootSlashes dir := by
  obtain ⟨n, d, rest, rfl, hd⟩ : ∃ n d rest, dir = List.replicate n '/' ++ d :: rest ∧ d ≠ '/' := by
    induction dir with
    | nil => exact nomatch hc
    | cons d dir ih =>
      by_cases hd : d = '/'
      · have hmem : c ∈ dir := (List.mem_cons.mp hc).resolve_left fun heq => hslash (heq.trans hd)
        obtain ⟨n, e, rest, rfl, he⟩ := ih hmem
        exact ⟨n + 1, e, rest, by simp [hd, List.replicate_succ], he⟩
      · exact ⟨0, d, dir, rfl, hd⟩
  -- only the first three characters count
  match n with
  | 0 => simp [rootSlashes, hd]
  | 1 => simp [rootSlashes, hd]
  | 2 => simp [rootSlashes, hd]
  | n + 3 => simp [rootSlashes, List.replicate_succ]

/-- Below a directory that ends with a name, the components of a path without two dots come behind those of
the directory. -/
lemma components_nested {front : List (List Char)} {last : List Char}
    (hdir : pieces '/' dir = front ++ [last]) (hlast : IsName last)
    (hdots : ['.', '.'] ∉ pieces '/' rel) :
    rootSlashes (dir ++ '/' :: rel) = rootSlashes dir ∧ components dir ≠ [] ∧
      components (dir ++ '/' :: rel) = components dir ++ namesOf (pieces '/' rel) := by
  obtain ⟨c, cs, rfl⟩ := List.exists_cons_of_ne_nil hlast.nonempty
  have hpiece : c :: cs ∈ pieces '/' dir := by simp [hdir]
  have hc : c ∈ dir := subset_of_mem_pieces hpiece List.mem_cons_self
  have hslash : c ≠ '/' := fun heq => hlast.noSlash (heq ▸ List.mem_cons_self)
  have hroot := rootSlashes_append hc hslash ('/' :: rel)
  refine ⟨hroot, ?_, ?_⟩
  · rw [components, hdir, List.foldl_append, List.foldl_cons, List.foldl_nil, walk_of_isName hlast]
    simp
  · rw [components, hroot, pieces_append_cons, List.foldl_append, foldl_walk_names hdots, components]
    simp

/-- **Nesting.**  A path without two dots and with some name lies strictly below every directory that ends
with a name. -/
theorem strictlyBelow_nested {dir rel : String} {front : List (List Char)} {last : List Char}
    (hdir : pieces '/' dir.toList = front ++ [last]) (hlast : IsName last)
    (hdots : ['.', '.'] ∉ pieces '/' rel.toList) (hname : ∃ p ∈ pieces '/' rel.toList, IsName p) :
    StrictlyBelow dir (dir ++ "/" ++ rel) := by
  obtain ⟨hroot, hne, hcomponents⟩ := components_nested hdir hlast hdots
  obtain ⟨p, hp, hnamed⟩ := hname
  have hmem : p ∈ namesOf (pieces '/' rel.toList) :=
    List.mem_filter.mpr ⟨hp, by simp [hnamed.nonempty, hnamed.noDot]⟩
  have hnames : namesOf (pieces '/' rel.toList) ≠ [] := List.ne_nil_of_mem hmem
  refine ⟨_, hnames, fun q hq => isName_of_mem_namesOf hdots (fun _ => not_mem_pieces) hq, ?_⟩
  have hwritten : ∀ cs, components cs ≠ [] → normalChars cs = written (rootSlashes cs) (components cs) := by
    intro cs hcs
    have hproper : ∀ q ∈ components cs, Proper q := fun q => proper_components
    have htext := intercalate_ne_nil hproper hcs
    rw [normalChars]
    exact if_neg (by simp [htext])
  have htext : (dir ++ "/" ++ rel).toList = dir.toList ++ '/' :: rel.toList := by
    simp [String.toList_append]
  rw [normal, normal, String.toList_ofList, String.toList_ofList, htext, hwritten _ hne,
    hwritten _ (by simp [hcomponents, hne]), hroot, hcomponents, written, written,
    intercalate_append hne hnames, List.append_assoc]

end SourceBundle.Text.Path
