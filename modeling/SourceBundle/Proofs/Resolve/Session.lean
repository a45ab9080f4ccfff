/-
# The versions of a session

A run keeps the versions that it chooses for packages whose imports name none.  The version of such a
package is chosen once: later it is the one that is kept.  An import that names a version or a range
neither asks for the kept versions nor changes them.
-/
import SourceBundle.Proofs.Resolve.Kept
import SourceBundle.Proofs.Table

namespace SourceBundle

open SourceBundle.Import

/-- The import leaves the version of its package open. -/
def Import.PackageReference.isOpen (ref : PackageReference) : Bool := (ref.version?.getD "").isEmpty

/-- The kept versions are the same. -/
def Resolver.SameSession (r r' : Resolver) : Prop := r'.session = r.session

instance : IsPreorder Resolver Resolver.SameSession where
  refl _ := rfl
  trans _ _ _ h h' := Eq.trans h' h

instance : Resolver.Admits Resolver.SameSession where
  warnings _ _ _ := rfl
  published _ _ := rfl
  pins _ _ := rfl

/-- What the choice of a version for a package does to the versions that are kept: an open version is
the one that is kept afterwards, as it was before if there was one, and nothing else changes. -/
inductive Chosen (ref : PackageReference) (version : String) (session : Table String String) :
    Table String String → Prop
  | named : ref.isOpen = false → Chosen ref version session session
  | again : ref.isOpen = true → session.get? ref.fullName = some version →
      Chosen ref version session session
  | first : ref.isOpen = true → session.get? ref.fullName = none →
      Chosen ref version session (session.insert ref.fullName version)

namespace Chosen

variable {ref : PackageReference} {version name v : String} {session session' : Table String String}

/-- What is kept stays. -/
lemma kept (h : Chosen ref version session session') (hv : session.get? name = some v) :
    session'.get? name = some v := by
  cases h with
  | named => exact hv
  | again => exact hv
  | first _ hnone =>
    have hne : ref.fullName ≠ name := by
      rintro rfl
      exact nomatch hnone.symm.trans hv
    rw [Table.get?_insert_ne _ hne, hv]

/-- An open version is kept. -/
lemma keeps (h : Chosen ref version session session') (ho : ref.isOpen = true) :
    session'.get? ref.fullName = some version := by
  cases h with
  | named hn => exact nomatch hn.symm.trans ho
  | again _ hv => exact hv
  | first => exact Table.get?_insert_self _ _ _

/-- What is kept was kept before, or has been chosen for an import that leaves its version open. -/
lemma origin (h : Chosen ref version session session') (hv : session'.get? name = some v) :
    session.get? name = some v ∨ ref.isOpen = true ∧ ref.fullName = name := by
  cases h with
  | named => exact Or.inl hv
  | again => exact Or.inl hv
  | first ho =>
    by_cases hne : ref.fullName = name
    · exact Or.inr ⟨ho, hne⟩
    · rw [Table.get?_insert_ne _ hne] at hv
      exact Or.inl hv

end Chosen

namespace Resolve

variable {busy : Bool} {D : String → Prop} {T : Terms Service Question Question.Answer}
  {ref : PackageReference} {parent? : Option PackageKey} {r r' : Resolver} {s s' : Service}

lemma resolve_of_open (ho : ref.isOpen = true) :
    resolve ref parent? = resolveUnpinned ref parent? := by
  unfold PackageReference.isOpen at ho
  unfold resolve
  split
  · next range h =>
    rw [h] at ho
    exact if_pos ho
  · rfl

lemma resolve_of_not_open (hn : ¬ ref.isOpen = true) (parent? : Option PackageKey) :
    ∃ range, resolve ref parent? = resolvePin ref range := by
  unfold PackageReference.isOpen at hn
  unfold resolve
  split
  · next range h =>
    rw [h] at hn
    exact ⟨range, if_neg hn⟩
  · next h =>
    rw [h] at hn
    exact absurd rfl hn

/-- A named version or range leaves the kept versions alone, whatever comes of it. -/
theorem sameSession_resolve (hn : ref.isOpen = false) :
    Run.Plain (plainly busy D) Resolver.SameSession (resolve ref parent?) := by
  have hnamed : ¬ ref.isOpen = true := by simp [hn]
  obtain ⟨range, hrange⟩ := resolve_of_not_open hnamed parent?
  rw [hrange]
  with_reducible exact admits_resolvePin ref range

/-- The choice of an open version ends with the one that is kept. -/
lemma chosen_of_resolveUnpinned {resolved : ResolvedVersion} (ho : ref.isOpen = true)
    (h : Run.Ends T (resolveUnpinned ref parent?) r s (.ok resolved) r' s') :
    Chosen ref resolved.version r.session r'.session := by
  obtain ⟨_, u, v, hc, h₁⟩ := Run.ends_bind_ok.mp h
  have hu : u.session = r.session :=
    ((admits_checkConflicts (I := Resolver.SameSession) ref.fullName).ends (meet_quiet T) trivial hc).1
  obtain ⟨_, u, v, hg, h₂⟩ := Run.ends_bind_ok.mp h₁
  obtain ⟨⟨⟩, rfl, rfl⟩ := Run.ends_get.mp hg
  rw [← hu]
  split at h₂
  · next version hv =>
    obtain ⟨hr, rfl, -⟩ := Run.ends_pure.mp h₂
    obtain rfl := Except.ok.inj hr
    exact .again ho hv
  · next hv =>
    obtain ⟨chosen, w, x, hf, h₃⟩ := Run.ends_bind_ok.mp h₂
    have hw : w.session = u.session :=
      ((admits_firstOf (I := Resolver.SameSession) ref parent?).ends (meet_quiet T) trivial hf).1
    obtain ⟨_, _, _, hm, h₄⟩ := Run.ends_bind_ok.mp h₃
    obtain ⟨-, rfl, rfl⟩ := Run.ends_modify.mp hm
    obtain ⟨_, _, _, hl, h₅⟩ := Run.ends_bind_ok.mp h₄
    obtain ⟨_, -, -, rfl⟩ := Stateful.ends_work.mp hl
    obtain ⟨hr, rfl, -⟩ := Run.ends_pure.mp h₅
    obtain rfl := Except.ok.inj hr
    rw [← hw] at hv ⊢
    exact .first ho hv

/-- The choice of a version for a package. -/
theorem chosen_of_resolve {resolved : ResolvedVersion}
    (h : Run.Ends T (resolve ref parent?) r s (.ok resolved) r' s') :
    Chosen ref resolved.version r.session r'.session := by
  by_cases ho : ref.isOpen = true
  · rw [resolve_of_open ho] at h
    exact chosen_of_resolveUnpinned ho h
  · have hn : ref.isOpen = false := by simpa using ho
    have hsame : Run.Plain busily Resolver.SameSession (resolve ref parent?) := sameSession_resolve hn
    have hs : r'.session = r.session := (hsame.ends (meet_quiet T) trivial h).1
    rw [hs]
    exact .named hn

end Resolve

end SourceBundle
