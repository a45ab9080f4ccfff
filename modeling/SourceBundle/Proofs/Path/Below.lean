/-
# Paths below a directory

A path that is taken relative to the directory of another one may lead out of it by two dots, and back in
again.  If in normal form it does not lead above the place where it begins, it leads to the same place when
both paths are put below some directory: the two dots only ever leave components that were walked before,
and those of the directory stay where they are at the bottom of the stack.
-/
import SourceBundle.Proofs.Path

namespace SourceBundle.Text.Path

variable {rooted : Bool} {stack below ps qs : List (List Char)} {p : List Char}

/-! ## Walking on top of a directory -/

/-- Two dots that stand on the stack are never left. -/
lemma dots_mem_walk (h : ['.', '.'] ∈ stack) (p : List Char) : ['.', '.'] ∈ walk rooted stack p := by
  unfold walk
  split
  · exact h
  · split
    · cases stack with
      | nil => exact nomatch h
      | cons top rest =>
        dsimp only
        split
        · exact List.mem_cons_of_mem _ h
        · next htop =>
          -- two dots do not stand on top, so that they stand below
          exact (List.mem_cons.mp h).resolve_left fun heq => htop heq.symm
    · exact List.mem_cons_of_mem _ h

lemma dots_mem_foldl (h : ['.', '.'] ∈ stack) (ps : List (List Char)) :
    ['.', '.'] ∈ ps.foldl (walk rooted) stack := by
  induction ps generalizing stack with
  | nil => exact h
  | cons p ps ih => exact ih (dots_mem_walk h p)

/-- A step that does not lead above the beginning of the walk is the same on top of other components. -/
lemma walk_append (h : ['.', '.'] ∉ walk false stack p) (below : List (List Char)) :
    walk rooted (stack ++ below) p = walk false stack p ++ below := by
  unfold walk at h ⊢
  split
  · rfl
  · next hkind =>
    rw [if_neg hkind] at h
    split
    · next hdots =>
      rw [if_pos hdots] at h
      cases stack with
      | nil => simp [hdots] at h
      | cons top rest =>
        dsimp only [List.cons_append] at h ⊢
        split
        · next htop => simp [htop] at h
        · rfl
    · rfl

lemma foldl_walk_append (h : ['.', '.'] ∉ ps.foldl (walk false) stack) (below : List (List Char)) :
    ps.foldl (walk rooted) (stack ++ below) = ps.foldl (walk false) stack ++ below := by
  induction ps generalizing stack with
  | nil => rfl
  | cons p ps ih =>
    have hp : ['.', '.'] ∉ walk false stack p := fun hmem => h (dots_mem_foldl hmem ps)
    rw [List.foldl_cons, walk_append hp, ih h, List.foldl_cons]

/-! ## The directory of a path -/

lemma intercalate_append (hps : ps ≠ []) (hqs : qs ≠ []) :
    List.intercalate ['/'] (ps ++ qs) = List.intercalate ['/'] ps ++ '/' :: List.intercalate ['/'] qs := by
  induction ps with
  | nil => exact absurd rfl hps
  | cons p ps ih =>
    cases ps with
    | nil =>
      obtain ⟨q, qs, rfl⟩ := List.exists_cons_of_ne_nil hqs
      simp [List.intercalate_cons_cons]
    | cons p' ps =>
      have hrest := ih (List.cons_ne_nil p' ps)
      simp only [List.cons_append] at hrest ⊢
      rw [List.intercalate_cons_cons, hrest, List.intercalate_cons_cons]
      simp

lemma pieces_intercalate_append (hps : ps ≠ []) (hslash : ∀ p ∈ ps, '/' ∉ p) (rest : List Char) :
    pieces '/' (List.intercalate ['/'] ps ++ '/' :: rest) = ps ++ pieces '/' rest := by
  induction ps with
  | nil => exact absurd rfl hps
  | cons p ps ih =>
    obtain ⟨hp, hps'⟩ := List.forall_mem_cons.mp hslash
    cases ps with
    | nil => simpa using pieces_append hp rest
    | cons p' ps =>
      have hrest := ih (List.cons_ne_nil p' ps) hps'
      rw [List.intercalate_cons_cons, List.append_assoc, List.append_assoc, List.singleton_append,
        pieces_append hp, hrest]
      rfl

lemma intercalate_ne_nil (h : ∀ p ∈ ps, Proper p) (hps : ps ≠ []) : List.intercalate ['/'] ps ≠ [] := by
  obtain ⟨p, ps, rfl⟩ := List.exists_cons_of_ne_nil hps
  obtain ⟨c, cs, rfl⟩ := List.exists_cons_of_ne_nil (h p List.mem_cons_self).nonempty
  cases ps <;> simp [List.intercalate_cons_cons]

/-- Components that are put together end with one. -/
lemma getLast?_intercalate (h : ∀ p ∈ ps, Proper p) : (List.intercalate ['/'] ps).getLast? ≠ some '/' := by
  rcases List.eq_nil_or_concat ps with rfl | ⟨front, p, rfl⟩
  · exact nofun
  · rw [List.concat_eq_append] at h ⊢
    have hp := h p (by simp)
    have hend : p.getLast? ≠ some '/' := fun hlast => hp.noSlash (List.mem_of_mem_getLast? hlast)
    by_cases hfront : front = []
    · simpa [hfront] using hend
    · have hcons : '/' :: p ≠ [] := List.cons_ne_nil _ _
      rw [intercalate_append hfront (List.cons_ne_nil p [])]
      simpa [List.getLast?_append, List.getLast?_cons_of_ne_nil hp.nonempty, Option.or_of_isSome,
        hp.nonempty] using hend

/-- The directory of a path are its components but the last one. -/
lemma parentChars_intercalate (h : ∀ p ∈ ps, Proper p) (hp : '/' ∉ p) :
    parentChars (List.intercalate ['/'] (ps ++ [p])) = List.intercalate ['/'] ps := by
  by_cases hps : ps = []
  · subst hps
    simp [parentChars, cutLast?_of_not_mem hp]
  · have hcut : cutLast? '/' (List.intercalate ['/'] (ps ++ [p])) =
        some (List.intercalate ['/'] ps, p) := by
      rw [intercalate_append hps (List.cons_ne_nil p [])]
      simpa using cutLast?_append hp
    -- a component begins and ends with another character than a slash
    have hhead := head?_intercalate h
    have hlast := getLast?_intercalate h
    have hne := intercalate_ne_nil h hps
    rw [parentChars, hcut]
    generalize List.intercalate ['/'] ps = dir at hhead hlast hne
    obtain ⟨c, cs, rfl⟩ := List.exists_cons_of_ne_nil hne
    have hc : c ≠ '/' := by simpa using hhead
    have hkept : (c :: cs).reverse.dropWhile (· == '/') = (c :: cs).reverse := by
      rw [← List.head?_reverse] at hlast
      cases hrev : (c :: cs).reverse with
      | nil => rfl
      | cons d ds =>
        rw [hrev] at hlast
        exact List.dropWhile_cons_of_neg (by simpa using hlast)
    have hall : (c :: cs).all (· == '/') = false := by simp [hc]
    simp only [hall, hkept, List.reverse_reverse, Bool.false_eq_true, if_false]

/-- A path that is taken relative to the directory of another one has the components of the directory, and
then its own pieces. -/
lemma pieces_joinChars {lit : List Char} (h : ∀ p ∈ ps, Proper p) (hp : '/' ∉ p)
    (hlit : lit.head? ≠ some '/') :
    pieces '/' (joinChars (parentChars (List.intercalate ['/'] (ps ++ [p]))) lit) =
      ps ++ pieces '/' lit := by
  have hlast := getLast?_intercalate h
  rw [parentChars_intercalate h hp, joinChars, if_neg hlit]
  cases ps with
  | nil => rfl
  | cons q qs =>
    have hne := intercalate_ne_nil h (List.cons_ne_nil q qs)
    have hinside : ((List.intercalate ['/'] (q :: qs)).isEmpty ||
        decide ((List.intercalate ['/'] (q :: qs)).getLast? = some '/')) = false := by
      simp [hne, hlast]
    rw [hinside, if_neg Bool.false_ne_true]
    exact pieces_intercalate_append (List.cons_ne_nil q qs) (fun p hp => (h p hp).noSlash) lit

/-! ## Directories and files -/

/-- A path names a directory by its components, of which none leads upwards. -/
def IsDirectory (dir : String) : Prop :=
  ∀ p ∈ pieces '/' dir.toList, Proper p ∧ p ≠ ['.', '.']

/-- A path is relative, in normal form, and has some component. -/
structure IsFile (path : String) : Prop where
  normal : normal path = path
  relative : path.toList.head? ≠ some '/'
  named : path ≠ "."

/-- A path does not lead above the place where it begins. -/
def StaysBelow (path : String) : Prop := ['.', '.'] ∉ components path.toList

instance (path : String) : Decidable (StaysBelow path) := inferInstanceAs (Decidable (_ ∉ _))

lemma rootSlashes_eq_zero {cs : List Char} (h : cs.head? ≠ some '/') : rootSlashes cs = 0 :=
  rootSlashes_replicate_append (Nat.zero_le 2) h

lemma normalChars_of_relative {cs : List Char} (h : cs.head? ≠ some '/') :
    normalChars cs =
      if (List.intercalate ['/'] (components cs)).isEmpty then ['.']
      else List.intercalate ['/'] (components cs) := by
  rw [normalChars, rootSlashes_eq_zero h]
  rfl

/-- What has some component in normal form is its components put together. -/
lemma normalChars_eq {cs : List Char} (h : cs.head? ≠ some '/') (hdot : normalChars cs ≠ ['.']) :
    normalChars cs = List.intercalate ['/'] (components cs) ∧ components cs ≠ [] := by
  rw [normalChars_of_relative h] at hdot ⊢
  split at hdot
  · exact absurd rfl hdot
  · next hne =>
    refine ⟨if_neg hne, ?_⟩
    rintro hnil
    simp [hnil] at hne

lemma IsFile.toList_eq {path : String} (h : IsFile path) :
    path.toList = List.intercalate ['/'] (components path.toList) ∧ components path.toList ≠ [] := by
  have hnormal : normalChars path.toList = path.toList := by
    rw [← String.toList_ofList (l := normalChars path.toList)]
    exact congrArg String.toList h.normal
  have hdot : normalChars path.toList ≠ ['.'] := by
    rw [hnormal]
    exact fun hdot => h.named (String.toList_injective hdot)
  obtain ⟨heq, hne⟩ := normalChars_eq h.relative hdot
  exact ⟨hnormal.symm.trans heq, hne⟩

lemma toList_eq_intercalate_pieces (path : String) :
    path.toList = List.intercalate ['/'] (pieces '/' path.toList) ∧ pieces '/' path.toList ≠ [] := by
  rw [pieces_eq_splitOn]
  exact ⟨(List.intercalate_splitOn '/').symm, List.splitOn_ne_nil '/' _⟩

lemma toList_join_parent (file lit : String) :
    (join (parent file) lit).toList = joinChars (parentChars file.toList) lit.toList := by
  rw [join, parent, String.toList_ofList, String.toList_ofList]

lemma head?_join_parent {file lit : String} (hfile : file.toList.head? ≠ some '/')
    (hlit : lit.toList.head? ≠ some '/') : (join (parent file) lit).toList.head? ≠ some '/' := by
  rw [toList_join_parent]
  have hparent := parentChars_prefix file.toList
  have hhead := head?_of_prefix hparent hfile
  exact head?_joinChars hhead hlit

lemma components_of_relative {cs : List Char} (h : cs.head? ≠ some '/') :
    components cs = ((pieces '/' cs).foldl (walk false) []).reverse := by
  rw [components, rootSlashes_eq_zero h]
  rfl

/-- The components of a directory are a stack by themselves. -/
lemma IsDirectory.stacked {dir : String} (h : IsDirectory dir) :
    Stacked false (pieces '/' dir.toList).reverse := by
  have hall : ∀ p ∈ (pieces '/' dir.toList).reverse, Proper p ∧ p ≠ ['.', '.'] :=
    fun p hp => h p (List.mem_reverse.mp hp)
  generalize (pieces '/' dir.toList).reverse = ps at hall
  induction ps with
  | nil => trivial
  | cons p ps ih =>
    obtain ⟨⟨hproper, hdots⟩, hps⟩ := List.forall_mem_cons.mp hall
    exact ⟨hproper, fun heq => absurd heq hdots, ih hps⟩

/-- On top of a directory, a walk that does not lead above its beginning ends with the same components. -/
lemma IsDirectory.foldl_walk {dir : String} (h : IsDirectory dir)
    (hdots : ['.', '.'] ∉ ps.foldl (walk false) []) :
    (pieces '/' dir.toList ++ ps).foldl (walk false) [] =
      ps.foldl (walk false) [] ++ (pieces '/' dir.toList).reverse := by
  have hbottom := foldl_walk_reverse h.stacked
  rw [List.reverse_reverse] at hbottom
  rw [List.foldl_append, hbottom]
  exact foldl_walk_append hdots _

/-- A file is in a directory of its own. -/
lemma IsFile.exists_front {path : String} (h : IsFile path) :
    ∃ front last, path.toList = List.intercalate ['/'] (front ++ [last]) ∧ (∀ p ∈ front, Proper p) ∧
      Proper last := by
  obtain ⟨htext, hne⟩ := h.toList_eq
  have hproper : ∀ p ∈ components path.toList, Proper p := fun p => proper_components
  rcases List.eq_nil_or_concat (components path.toList) with hnil | ⟨front, last, hconcat⟩
  · exact absurd hnil hne
  · rw [List.concat_eq_append] at hconcat
    rw [hconcat] at htext hproper
    obtain ⟨hfront, hlast⟩ := List.forall_mem_append.mp hproper
    exact ⟨front, last, htext, hfront, hlast last (List.mem_singleton_self _)⟩

/-- The text of a path below a directory is put together of the components of both. -/
lemma toList_below {dir file : String} (hps : ps ≠ []) (hfile : file.toList = List.intercalate ['/'] ps) :
    (dir ++ "/" ++ file).toList = List.intercalate ['/'] (pieces '/' dir.toList ++ ps) := by
  obtain ⟨htext, hne⟩ := toList_eq_intercalate_pieces dir
  rw [intercalate_append hne hps, ← htext, ← hfile]
  simp [String.toList_append]

/-- Below a directory the components of a relative path come behind those of the directory. -/
lemma components_join_below {dir file lit : String} (hdir : IsDirectory dir) (hfile : IsFile file)
    (hlit : lit.toList.head? ≠ some '/') (hbelow : StaysBelow (join (parent file) lit)) :
    (join (parent (dir ++ "/" ++ file)) lit).toList.head? ≠ some '/' ∧
      components (join (parent (dir ++ "/" ++ file)) lit).toList =
        pieces '/' dir.toList ++ components (join (parent file) lit).toList := by
  obtain ⟨front, last, htext, hfront, hlast⟩ := hfile.exists_front
  have hwhole : (dir ++ "/" ++ file).toList =
      List.intercalate ['/'] ((pieces '/' dir.toList ++ front) ++ [last]) := by
    rw [List.append_assoc]
    exact toList_below (by simp) htext
  have hproper : ∀ p ∈ pieces '/' dir.toList ++ front, Proper p :=
    List.forall_mem_append.mpr ⟨fun p hp => (hdir p hp).1, hfront⟩
  have hrelative : (dir ++ "/" ++ file).toList.head? ≠ some '/' := by
    rw [hwhole]
    exact head?_intercalate (List.forall_mem_append.mpr ⟨hproper, List.forall_mem_singleton.mpr hlast⟩)
  have hjoin := head?_join_parent hrelative hlit
  refine ⟨hjoin, ?_⟩
  have hinner := components_of_relative (head?_join_parent hfile.relative hlit)
  rw [toList_join_parent, htext, pieces_joinChars hfront hlast.noSlash hlit] at hinner
  have hnodots : ['.', '.'] ∉ (front ++ pieces '/' lit.toList).foldl (walk false) [] := by
    rw [StaysBelow, toList_join_parent, htext, hinner] at hbelow
    simpa using hbelow
  rw [components_of_relative hjoin, toList_join_parent, hwhole,
    pieces_joinChars hproper hlast.noSlash hlit, toList_join_parent, htext, hinner, List.append_assoc,
    hdir.foldl_walk hnodots, List.reverse_append, List.reverse_reverse]

/-- Below a directory a relative path leads from the directory of a file to the same file as without the
directory, if it does not lead above. -/
theorem normal_join_below {dir file lit : String} (hdir : IsDirectory dir) (hfile : IsFile file)
    (hlit : lit.toList.head? ≠ some '/') (hbelow : StaysBelow (join (parent file) lit))
    (hnamed : normal (join (parent file) lit) ≠ ".") :
    normal (join (parent (dir ++ "/" ++ file)) lit) = dir ++ "/" ++ normal (join (parent file) lit) := by
  obtain ⟨hhead, hcomponents⟩ := components_join_below hdir hfile hlit hbelow
  obtain ⟨hdirtext, hdirne⟩ := toList_eq_intercalate_pieces dir
  have hinner : normalChars (join (parent file) lit).toList =
      List.intercalate ['/'] (components (join (parent file) lit).toList) ∧
        components (join (parent file) lit).toList ≠ [] := by
    refine normalChars_eq (head?_join_parent hfile.relative hlit) fun hdot => hnamed ?_
    rw [normal, hdot]
  have hproper : ∀ p ∈ components (join (parent (dir ++ "/" ++ file)) lit).toList, Proper p :=
    fun p => proper_components
  have hne : List.intercalate ['/'] (components (join (parent (dir ++ "/" ++ file)) lit).toList) ≠ [] :=
    intercalate_ne_nil hproper (by simp [hcomponents, hinner.2])
  apply String.toList_injective
  rw [normal, String.toList_ofList, normalChars_of_relative hhead, if_neg (by simpa using hne), hcomponents,
    intercalate_append hdirne hinner.2, ← hdirtext, ← hinner.1, normal, String.toList_append,
    String.toList_append, String.toList_ofList]
  simp

end SourceBundle.Text.Path
