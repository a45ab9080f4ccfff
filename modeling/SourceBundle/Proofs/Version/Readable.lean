/-
# Readable ranges

The one way in which a text can fail to be dealt with as a range is a hyphen range with an end that
cannot be taken apart.  Such a range needs blanks around its hyphen, so that an import, which has no
blanks in its version, never asks for one.  The other ranges are those of manifests and lockfiles.
-/
import Mathlib.Data.List.Basic
import SourceBundle.Import.Package
import SourceBundle.Manifest
import SourceBundle.Proofs.Import.Package
import SourceBundle.Proofs.Table
import SourceBundle.Version.Select

namespace SourceBundle

open SourceBundle.Import SourceBundle.Text

/-! ## Pieces of texts -/

namespace Text

lemma mem_of_mem_splitWord {word : List Char} {skip : Nat} {cs p : List Char} {c : Char}
    (hp : p ∈ splitWord word skip cs) (hc : c ∈ p) : c ∈ cs := by
  induction cs generalizing skip p with
  | nil =>
    obtain rfl := List.mem_singleton.mp hp
    exact hc
  | cons d cs ih =>
    cases skip with
    | succ skip => exact List.mem_cons_of_mem d (ih hp hc)
    | zero =>
      unfold splitWord at hp
      split at hp
      · rcases List.mem_cons.mp hp with rfl | hp
        · cases hc
        · exact List.mem_cons_of_mem d (ih hp hc)
      · split at hp
        · obtain rfl := List.mem_singleton.mp hp
          rw [List.mem_singleton.mp hc]
          exact List.mem_cons_self
        · next q qs hq =>
          rcases List.mem_cons.mp hp with rfl | hp
          · rcases List.mem_cons.mp hc with rfl | hc
            · exact List.mem_cons_self
            · exact List.mem_cons_of_mem d (ih (hq ▸ List.mem_cons_self) hc)
          · exact List.mem_cons_of_mem d (ih (hq ▸ List.mem_cons_of_mem q hp) hc)

/-- A text without the first letter of a word is not split at the word. -/
lemma splitWord_of_not_mem {w : Char} {word cs : List Char} (h : w ∉ cs) :
    splitWord (w :: word) 0 cs = [cs] := by
  induction cs with
  | nil => rfl
  | cons c cs ih =>
    have hne : w ≠ c := fun he => h (he ▸ List.mem_cons_self)
    rw [splitWord, dropPrefix?, if_neg hne, ih fun hm => h (List.mem_cons_of_mem c hm)]

lemma mem_of_mem_trimChars {cs : List Char} {c : Char} (h : c ∈ trimChars cs) : c ∈ cs := by
  have hright : c ∈ (cs.dropWhile isBlank).reverse :=
    (List.dropWhile_sublist isBlank).subset (List.mem_reverse.mp h)
  exact (List.dropWhile_sublist isBlank).subset (List.mem_reverse.mp hright)

end Text

namespace Version

/-- A range that can be dealt with: it is used, or rejected for a reason in words. -/
def Readable (range : String) : Prop := Range.ofText range ≠ .error .unreadableEnd

instance (range : String) : Decidable (Readable range) := inferInstanceAs (Decidable (_ ≠ _))

lemma exists_of_mapM_error {α β ε : Type} {f : α → Except ε β} {l : List α} {e : ε}
    (h : l.mapM f = .error e) : ∃ a ∈ l, f a = .error e := by
  induction l with
  | nil => cases h
  | cons a l ih =>
    rw [List.mapM_cons] at h
    cases ha : f a with
    | error e' =>
      rw [ha] at h
      obtain rfl := Except.error.inj h
      exact ⟨a, List.mem_cons_self, ha⟩
    | ok b =>
      rw [ha] at h
      cases hl : l.mapM f with
      | error e' =>
        have he : e' = e := by simpa [hl, bind, Except.bind] using h
        obtain ⟨a', ha', hf⟩ := ih (he ▸ hl)
        exact ⟨a', List.mem_cons_of_mem a ha', hf⟩
      | ok bs => simp [hl, bind, Except.bind, pure, Except.pure] at h

lemma eq_invalid_of_blockClauses {b : Block} {target : Version} {e : DeclaredFault}
    (h : b.declaredClauses target = .error e) : e = .invalid := by
  unfold Block.declaredClauses at h
  split at h
  · split at h
    · cases h
    · cases h
    · exact (Except.error.inj h).symm
  · split at h <;> cases h

lemma eq_invalid_of_declaredBlock {cs : List Char} {e : DeclaredFault}
    (h : declaredBlock cs .invalid = .error e) : e = .invalid := by
  unfold declaredBlock at h
  split at h
  · exact (Except.error.inj h).symm
  · exact (Except.error.inj h).symm
  · next b _ =>
    dsimp only at h
    generalize (if b.sign = .compared .eq then b else { b with build? := none }) = b' at h
    split at h
    · exact (Except.error.inj h).symm
    · split at h
      · exact (Except.error.inj h).symm
      · exact eq_invalid_of_blockClauses h

/-- A choice without blanks is no hyphen range. -/
lemma eq_invalid_of_declaredClauses {cs : List Char} {e : DeclaredFault} (hb : ' ' ∉ cs)
    (h : declaredClauses cs = .error e) : e = .invalid := by
  have hb' : ' ' ∉ if cs.isEmpty then ">=0.0.0".toList else cs := by
    split
    · decide
    · exact hb
  have hsplit : splitWord (' ' :: "- ".toList) 0 _ = _ := splitWord_of_not_mem hb'
  unfold declaredClauses at h
  have hword : " - ".toList = ' ' :: "- ".toList := rfl
  rw [hword] at h
  dsimp only at h
  rw [hsplit] at h
  dsimp only at h
  cases hblocks : (pieces ' ' (if cs.isEmpty then ">=0.0.0".toList else cs)).mapM
      fun block => declaredBlock block .invalid with
  | error e' =>
    rw [hblocks] at h
    obtain rfl := Except.error.inj h
    obtain ⟨block, -, hblock⟩ := exists_of_mapM_error hblocks
    exact eq_invalid_of_declaredBlock hblock
  | ok blocks =>
    rw [hblocks] at h
    cases h

/-- A range without blanks is readable. -/
theorem readable_of_not_mem {range : String} (hb : ' ' ∉ range.toList) : Readable range := by
  intro h
  unfold Range.ofText at h
  split at h
  · cases h
  · next hd =>
    unfold Range.ofDeclared at hd
    cases hg : (splitWord "||".toList 0 range.toList).mapM fun choice => do
        let clauses ← declaredClauses (trimChars choice)
        pure (declaredGroups clauses) with
    | error e =>
      rw [hg] at hd
      obtain rfl := Except.error.inj hd
      obtain ⟨choice, hchoice, he⟩ := exists_of_mapM_error hg
      cases hc : declaredClauses (trimChars choice) with
      | error e' =>
        rw [hc] at he
        obtain rfl := Except.error.inj he
        have hb' : ' ' ∉ trimChars choice := fun hm =>
          hb (mem_of_mem_splitWord hchoice (mem_of_mem_trimChars hm))
        exact nomatch eq_invalid_of_declaredClauses hb' hc
      | ok clauses =>
        rw [hc] at he
        cases he
    | ok groups =>
      rw [hg] at hd
      cases hd
  · cases hn : (normalize range >>= Range.ofListed) with
    | error f =>
      rw [hn] at h
      cases h
    | ok r =>
      rw [hn] at h
      cases h

end Version

/-! ## The ranges of imports -/

namespace Import.PackageReference

lemma not_mem_of_isRun {cs : List Char} (h : isRun isVersionChar cs = true) : ' ' ∉ cs := by
  intro hm
  unfold isRun at h
  dsimp only at h
  split at h
  · next hl =>
    -- a line feed behind the run is no blank space
    obtain ⟨front, rfl⟩ := List.getLast?_eq_some_iff.mp hl
    rw [List.dropLast_concat, Bool.and_eq_true, List.all_eq_true] at h
    rcases List.mem_append.mp hm with hm | hm
    · exact absurd (h.2 ' ' hm) (by decide)
    · exact absurd (List.mem_singleton.mp hm) (by decide)
  · rw [Bool.and_eq_true, List.all_eq_true] at h
    exact absurd (h.2 ' ' hm) (by decide)

lemma version_of_parse {literal range : String} {p : PackageReference}
    (h : parse literal = .ok p) (hv : p.version? = some range) :
    ∃ version, isRun isVersionChar version = true ∧ range = String.ofList version := by
  obtain ⟨_, _, _, _, _, version?, hreads, rfl⟩ := exists_readsAs h
  obtain ⟨version, rfl, rfl⟩ := Option.map_eq_some_iff.mp hv
  exact ⟨version, hreads.isRun_version, rfl⟩

/-- The version that an import names is a readable range. -/
theorem readable_of_parse {literal range : String} {p : PackageReference}
    (h : parse literal = .ok p) (hv : p.version? = some range) : Version.Readable range := by
  obtain ⟨version, hrun, rfl⟩ := version_of_parse h hv
  refine Version.readable_of_not_mem ?_
  rw [String.toList_ofList]
  exact not_mem_of_isRun hrun

end Import.PackageReference

/-! ## The ranges of manifests and lockfiles -/

/-- All ranges that a manifest declares are readable. -/
def Manifest.Readable (m : Manifest) : Prop :=
  ∀ package range f, m.declaredIn? package f = some range → Version.Readable (unalias range)

instance (m : Manifest) : Decidable m.Readable :=
  decidable_of_iff (∀ e ∈ m.declarations.entries, ∀ r ∈ e.2.entries,
    Version.Readable (Manifest.unalias r.2)) <| by
    constructor
    · intro h package range f hr
      obtain ⟨t, ht, hget⟩ := Option.bind_eq_some_iff.mp hr
      exact h (f, t) (Table.get?_eq_some_iff.mp ht) (package, range) (Table.get?_eq_some_iff.mp hget)
    · intro h e he r hr
      refine h r.1 r.2 e.1 (Option.bind_eq_some_iff.mpr ⟨e.2, ?_, ?_⟩)
      · exact Table.get?_eq_some_iff.mpr he
      · exact Table.get?_eq_some_iff.mpr hr

/-- All ranges that a lockfile records are readable. -/
def Lockfile.Readable (lock : Lockfile) : Prop :=
  ∀ name es, Table.get? lock name = some es → ∀ e ∈ es, ∀ range, e.range? = some range →
    Version.Readable range

instance (lock : Lockfile) : Decidable lock.Readable :=
  decidable_of_iff (∀ l ∈ Table.entries lock, ∀ e ∈ l.2, ∀ range ∈ e.range?, Version.Readable range) <| by
    constructor
    · intro h name es hget e he range hr
      exact h (name, es) (Table.get?_eq_some_iff.mp hget) e he range hr
    · intro h l hl e he range hr
      exact h l.1 l.2 (Table.get?_eq_some_iff.mpr hl) e he range hr

namespace Manifest

variable {m : Manifest} {package range : String}

lemma Readable.declaredRange (h : m.Readable) {f : DeclarationField}
    (hd : m.declaredRange? package = some (range, f)) : Version.Readable range := by
  obtain ⟨f', -, hf⟩ := List.exists_of_findSome?_eq_some hd
  obtain ⟨range', hr, he⟩ := Option.map_eq_some_iff.mp hf
  obtain ⟨rfl, rfl⟩ := Prod.mk.inj he
  exact h package range' f' hr

/-- All ranges of a table are readable. -/
def AllReadable (deps : Table String String) : Prop :=
  ∀ package range, deps.get? package = some range → Version.Readable range

lemma AllReadable.insertNew {deps : Table String String} (h : AllReadable deps)
    (hr : Version.Readable range) : AllReadable (deps.insertNew package range) := by
  intro package' range' hget
  unfold Table.insertNew at hget
  split at hget
  · exact h package' range' hget
  · by_cases he : package = package'
    · subst he
      rw [Table.get?_insert_self] at hget
      exact Option.some.inj hget ▸ hr
    · rw [Table.get?_insert_ne _ he] at hget
      exact h package' range' hget

lemma AllReadable.foldl {es : List (String × String)} {deps : Table String String}
    (h : AllReadable deps) (hes : ∀ e ∈ es, Version.Readable (unalias e.2)) :
    AllReadable (es.foldl (fun deps (package, range) => deps.insertNew package (unalias range)) deps) := by
  induction es generalizing deps with
  | nil => exact h
  | cons e es ih =>
    exact ih (h.insertNew (hes e List.mem_cons_self)) fun e' he => hes e' (List.mem_cons_of_mem e he)

lemma Readable.runtimeDependencies (h : m.Readable) : AllReadable m.runtimeDependencies := by
  have hfields : ∀ (fs : List DeclarationField) deps, AllReadable deps → AllReadable
      (fs.foldl (fun deps f => ((m.declarations.get? f).getD ∅).entries.foldl
        (fun deps (package, range) => deps.insertNew package (unalias range)) deps) deps) := by
    intro fs
    induction fs with
    | nil => exact fun deps hdeps => hdeps
    | cons f fs ih =>
      refine fun deps hdeps => ih _ (hdeps.foldl fun e he => h e.1 e.2 f ?_)
      cases hf : m.declarations.get? f with
      | none =>
        rw [hf] at he
        cases he
      | some section_ =>
        rw [hf] at he
        rw [declaredIn?, hf]
        exact Table.get?_eq_some_iff.mpr he
  exact hfields _ ∅ nofun

end Manifest

namespace Lock

/-- A lockfile records no ranges. -/
def Rangeless (lock : Lockfile) : Prop :=
  ∀ name es, Table.get? lock name = some es → ∀ e ∈ es, e.range? = none

lemma Rangeless.readable {lock : Lockfile} (h : Rangeless lock) : lock.Readable := by
  intro name es hes e he range hr
  rw [h name es hes e he] at hr
  cases hr

lemma Rangeless.add {lock : Lockfile} (h : Rangeless lock) (name version : String) :
    Rangeless (lock.add name ⟨none, version⟩) := by
  intro name' es hes e he
  by_cases hn : name = name'
  · subst hn
    rw [Lockfile.add, Table.get?_update_self] at hes
    obtain rfl := Option.some.inj hes
    rcases List.mem_append.mp he with he | he
    · cases hold : Table.get? lock name with
      | none =>
        rw [hold] at he
        cases he
      | some old =>
        rw [hold] at he
        exact h name old hold e he
    · rw [List.mem_singleton.mp he]
  · rw [Lockfile.add, Table.get?_update_ne _ hn] at hes
    exact h name' es hes e he

lemma rangeless_collect (name? : String → Option String) (ms : List (String × Json)) :
    Rangeless (collect name? ms) := by
  refine List.foldlRecOn ms _ (fun _ _ h => by cases h) fun lock h e _ => ?_
  dsimp only
  split
  · exact h.add _ _
  · exact h

/-- A lockfile that is a document records no ranges, so all are readable. -/
lemma readable_ofDocument {content : String} {lock : Lockfile}
    (h : ofDocument content = .ok lock) : lock.Readable := by
  unfold ofDocument at h
  cases hms : readObject .lockfile "package-lock.json" content with
  | error f =>
    rw [hms] at h
    cases h
  | ok ms =>
    rw [hms] at h
    obtain rfl := Except.ok.inj h
    refine Rangeless.readable ?_
    unfold ofMembers
    dsimp only
    split
    · exact rangeless_collect _ _
    · exact rangeless_collect _ _

end Lock

end SourceBundle
