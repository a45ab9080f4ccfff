/-
# What a workspace in memory has seen

A workspace in memory is told by the calls that made it.  A file holds what was written last under any path that
leads to its place.  A directory stands where one was created, and above everything that was written or created:
each call brings the directories above its place with it, and no call takes any away.

Places are normal forms without slashes in front, and the place of a place is itself.
-/
import Mathlib.Data.List.Induction
import SourceBundle.Proofs.Path
import SourceBundle.Proofs.Path.Below
import SourceBundle.Proofs.Table

namespace SourceBundle

namespace Text.Path

variable {rooted : Bool} {ps : List (List Char)}

/-! ## Components without a root -/

/-- What is stacked on the root may be stacked without it. -/
lemma Stacked.unrooted (h : Stacked rooted ps) : Stacked false ps := by
  induction ps with
  | nil => trivial
  | cons p ps ih => exact ⟨h.1, fun hp => ⟨rfl, (h.2.1 hp).2⟩, ih h.2.2⟩

/-- Components that are put together without a root are in normal form. -/
lemma normalChars_intercalate (h : Stacked false ps.reverse) (hne : ps ≠ []) :
    normalChars (List.intercalate ['/'] ps) = List.intercalate ['/'] ps := by
  have hproper : ∀ p ∈ ps, Proper p := fun p hp => h.proper (List.mem_reverse.mpr hp)
  have hhead := head?_intercalate hproper
  have hcomponents : components (List.intercalate ['/'] ps) = ps := by
    have hwalk := foldl_walk_reverse h
    rw [List.reverse_reverse] at hwalk
    rw [components_of_relative hhead, foldl_walk_pieces hproper, hwalk, List.reverse_reverse]
  rw [normalChars_of_relative hhead, hcomponents,
    if_neg (by simpa using intercalate_ne_nil hproper hne)]

end Text.Path

namespace Workspace.Memory

open Text Text.Path

variable {d : String}

/-! ## Places -/

/-- Without the slashes in front, the normal form of a path is a single dot, or its components. -/
lemma dropWhile_normalChars (cs : List Char) :
    (normalChars cs).dropWhile (· == '/') = ['.'] ∨
      (normalChars cs).dropWhile (· == '/') = List.intercalate ['/'] (components cs) := by
  show (if (written _ _).isEmpty then ['.'] else written _ _).dropWhile (· == '/') = _ ∨
    (if (written _ _).isEmpty then ['.'] else written _ _).dropWhile (· == '/') = _
  split
  · exact .inl rfl
  · exact .inr (dropWhile_written (fun _ => proper_components) _)

/-- The place of a place is itself. -/
lemma isPlace_place (path : String) : IsPlace (normal path) := by
  have hself : ∀ cs, normalChars cs = cs → cs.head? ≠ some '/' → IsPlace (String.ofList cs) := by
    intro cs hcs hhead
    have hnormal : Path.normal (String.ofList cs) = String.ofList cs := by
      rw [Path.normal, String.toList_ofList, hcs]
    rw [← hnormal]
    refine isPlace_normal ?_
    rwa [hnormal, String.toList_ofList]
  rw [normal]
  split
  · rfl
  · rw [Path.normal, String.toList_ofList]
    rcases dropWhile_normalChars path.toList with hdrop | hdrop
    · rw [hdrop]
      exact hself _ rfl (by decide)
    · rw [hdrop]
      by_cases hne : components path.toList = []
      · rw [hne]
        rfl
      · have hstacked := (stacked_components path.toList).unrooted
        exact hself _ (normalChars_intercalate hstacked hne) (head?_intercalate fun _ => proper_components)

/-! ## Directories above a path -/

/-- A directory lies above a path: the path goes on behind it with a slash. -/
def IsAbove (dir path : String) : Prop := ∃ rest, path = dir ++ "/" ++ rest

lemma mem_above : d ∈ above path ↔ IsAbove d path := by
  obtain ⟨hpath, hne⟩ := toList_eq_intercalate_pieces path
  simp only [above, List.mem_map, List.mem_range]
  constructor
  · rintro ⟨n, hn, rfl⟩
    have htake : (pieces '/' path.toList).take (n + 1) ≠ [] := by simp [hne]
    have hdrop : (pieces '/' path.toList).drop (n + 1) ≠ [] := by
      rw [Ne, List.drop_eq_nil_iff]
      omega
    refine ⟨String.ofList (List.intercalate ['/'] ((pieces '/' path.toList).drop (n + 1))), ?_⟩
    apply String.toList_injective
    conv_lhs => rw [hpath, ← List.take_append_drop (n + 1) (pieces '/' path.toList),
      intercalate_append htake hdrop]
    simp [String.toList_append]
  · rintro ⟨rest, rfl⟩
    obtain ⟨hdir, hdirne⟩ := toList_eq_intercalate_pieces d
    have hrestne := pieces_ne_nil '/' rest.toList
    have hpieces : pieces '/' (d ++ "/" ++ rest).toList = pieces '/' d.toList ++ pieces '/' rest.toList := by
      rw [← pieces_append_cons]
      simp [String.toList_append]
    have hlen := List.length_pos_iff.mpr hdirne
    have hlen' := List.length_pos_iff.mpr hrestne
    refine ⟨(pieces '/' d.toList).length - 1, ?_, ?_⟩
    · rw [hpieces, List.length_append]
      omega
    · rw [hpieces, Nat.sub_add_cancel hlen, List.take_left, ← hdir, String.ofList_toList]

lemma mem_addNew {dirs paths : List String} : d ∈ addNew paths dirs ↔ d ∈ dirs ∨ d ∈ paths := by
  induction paths generalizing dirs with
  | nil => simp [addNew]
  | cons p paths ih =>
    have hstep : addNew (p :: paths) dirs =
        addNew paths (if dirs.contains p then dirs else dirs ++ [p]) := rfl
    rw [hstep, ih, List.mem_cons]
    split
    · next hp =>
      have hp' : p ∈ dirs := by simpa using hp
      constructor
      · tauto
      · rintro (hd | rfl | hd)
        · exact .inl hd
        · exact .inl hp'
        · exact .inr hd
    · rw [List.mem_append, List.mem_singleton]
      tauto

/-! ## Calls -/

/-- A call that changes a workspace. -/
inductive Call
  /-- Write a file. -/
  | write (path content : String)
  /-- Create a directory. -/
  | mkdir (path : String)

/-- The workspace after a call. -/
def perform (m : Memory) : Call → Memory
  | .write path content => m.write path content
  | .mkdir path => m.mkdir path

/-- The workspace after some calls, oldest first, on an empty one. -/
def after (calls : List Call) : Memory := calls.foldl perform {}

/-- The path that a call is about. -/
def Call.path : Call → String
  | .write path _ => path
  | .mkdir path => path

/-- What a call writes at a place. -/
def Call.writes? (place : String) : Call → Option String
  | .write path content => if normal path = place then some content else none
  | .mkdir _ => none

/-- What was written last at a place. -/
def latest? (place : String) (calls : List Call) : Option String := calls.reverse.findSome? (·.writes? place)

lemma after_concat (calls : List Call) (c : Call) : after (calls ++ [c]) = (after calls).perform c := by
  rw [after, List.foldl_append]
  rfl

lemma get?_files_perform (m : Memory) (c : Call) (place : String) :
    (m.perform c).files.get? place = (c.writes? place).or (m.files.get? place) := by
  cases c with
  | write path content =>
    by_cases hplace : normal path = place
    · subst hplace
      simp [perform, write, Call.writes?]
    · simp [perform, write, Call.writes?, hplace, Table.get?_insert_ne _ hplace]
  | mkdir path =>
    simp only [perform, mkdir, Call.writes?, Option.none_or]
    split <;> rfl

lemma get?_files_after (calls : List Call) (place : String) :
    (after calls).files.get? place = latest? place calls := by
  induction calls using List.reverseRecOn with
  | nil => rfl
  | append_singleton calls c ih =>
    rw [after_concat, get?_files_perform, ih, latest?, latest?, List.reverse_append, List.reverse_singleton,
      List.singleton_append, List.findSome?_cons]
    cases c.writes? place <;> rfl

/-- Something was written at a place exactly if some call wrote it. -/
lemma isSome_latest? {place : String} :
    (latest? place calls).isSome = true ↔ ∃ path content, .write path content ∈ calls ∧ normal path = place := by
  rw [latest?, List.findSome?_isSome_iff]
  constructor
  · rintro ⟨c, hc, hwrites⟩
    cases c with
    | write path content =>
      refine ⟨path, content, List.mem_reverse.mp hc, ?_⟩
      by_contra hne
      simp [Call.writes?, hne] at hwrites
    | mkdir path => exact nomatch hwrites
  · rintro ⟨path, content, hmem, hplace⟩
    exact ⟨_, List.mem_reverse.mpr hmem, by simp [Call.writes?, hplace]⟩

/-- A call brings a directory into being: the one that it creates, or one above its place. -/
def Call.Brings (c : Call) (d : String) : Prop :=
  (∃ path, c = .mkdir path ∧ normal path = d ∧ d ≠ "") ∨ IsAbove d (normal c.path)

lemma mem_dirs_perform (m : Memory) (c : Call) : d ∈ (m.perform c).dirs ↔ d ∈ m.dirs ∨ c.Brings d := by
  cases c with
  | write path content => simp [perform, write, mem_addNew, mem_above, Call.Brings, Call.path]
  | mkdir path =>
    by_cases hempty : normal path = ""
    · have habove : ¬ IsAbove d "" := fun habove => by simpa [above, pieces] using mem_above.mpr habove
      simp [perform, mkdir, hempty, Call.Brings, Call.path, habove]
    · have hd : d = normal path ↔ normal path = d ∧ d ≠ "" :=
        ⟨fun h => ⟨h.symm, h ▸ hempty⟩, fun h => h.1.symm⟩
      simp only [perform, mkdir, String.isEmpty_iff, hempty, if_false, mem_addNew, List.mem_append,
        List.mem_singleton, mem_above, hd, Call.Brings, Call.path, Call.mkdir.injEq, exists_eq_left']
      tauto

lemma mem_dirs_after (calls : List Call) : d ∈ (after calls).dirs ↔ ∃ c ∈ calls, c.Brings d := by
  induction calls using List.reverseRecOn with
  | nil => simp [after]
  | append_singleton calls c ih =>
    rw [after_concat, mem_dirs_perform, ih]
    simp [or_and_right, exists_or]

lemma probe_after (calls : List Call) (q : String) :
    (after calls).probe q = true ↔
      (latest? (normal q) calls).isSome = true ∨ ∃ c ∈ calls, c.Brings (normal q) := by
  rw [probe, Bool.or_eq_true, Table.contains, get?_files_after, List.contains_iff_mem, mem_dirs_after]

/-- A place is above another one only if it is not empty. -/
lemma ne_empty_of_isAbove {path : String} (h : IsAbove d (normal path)) : d ≠ "" := by
  rintro rfl
  obtain ⟨rest, hrest⟩ := h
  refine head?_of_isPlace (isPlace_place path) ?_
  rw [hrest]
  simp [String.toList_append]

/-- **A tree of places.**  The place of a place is itself.  After any calls on an empty workspace, a path reads as
what was written last at its place, and cannot be read if nothing was written there.  It exists exactly if something
was written at its place, or if the place is not empty and was created as a directory or lies above one that
was written or created. -/
theorem tree_of_calls (calls : List Call) (q : String) :
    normal (normal q) = normal q ∧
      (after calls).read q =
        (match latest? (normal q) calls with
        | some content => .ok content
        | none => .error ⟨s!"No such file: {normal q}", normal q⟩) ∧
      ((after calls).probe q = true ↔
        (∃ path content, .write path content ∈ calls ∧ normal path = normal q) ∨
          normal q ≠ "" ∧
            ((∃ path, .mkdir path ∈ calls ∧ normal path = normal q) ∨
              ∃ c ∈ calls, IsAbove (normal q) (normal c.path))) := by
  refine ⟨isPlace_place q, ?_, ?_⟩
  · cases hlatest : latest? (normal q) calls <;> rw [read, get?_files_after, hlatest]
  · rw [probe_after, isSome_latest?]
    refine or_congr_right ?_
    constructor
    · rintro ⟨c, hc, ⟨path, rfl, hplace, hne⟩ | habove⟩
      · exact ⟨hne, .inl ⟨path, hc, hplace⟩⟩
      · exact ⟨ne_empty_of_isAbove habove, .inr ⟨c, hc, habove⟩⟩
    · rintro ⟨hne, ⟨path, hc, hplace⟩ | ⟨c, hc, habove⟩⟩
      · exact ⟨_, hc, .inl ⟨path, rfl, hplace, hne⟩⟩
      · exact ⟨c, hc, .inr habove⟩

example : (after [.write "a//b/../c.sol" "x", .mkdir "../d"]).probe "/./a/" = true := by decide

end Workspace.Memory

end SourceBundle
