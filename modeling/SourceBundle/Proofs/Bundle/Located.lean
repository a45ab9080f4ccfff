/-
# How imports are located

An import that is located names its file by itself, beside the importing file or in the workspace, or
it names a file of a package, for whose version it asks and then waits.  An import whose text is no
reference to a package is skipped with a warning.
-/
import SourceBundle.Proofs.Bundle.Course
import SourceBundle.Proofs.Resolve.Session

namespace SourceBundle.Bundle

open SourceBundle.Import SourceBundle.Text

/-- The reference to a package that an import is, if it names no file by itself. -/
def packageOf (st : Settings) (rules : List Remapping) (r : Reference) :
    Except ParseFault PackageReference :=
  PackageReference.parse (packageLiteral st (remap rules r.path).1)

/-- What is waited for when a version of a package has been chosen for an import. -/
def waitingFor (r : Reference) (package : PackageReference) (version : String) : Waiting :=
  ⟨r.file, r.path, ⟨package.fullName, version⟩, package.subpath⟩

/-- How an import is located when it is known whether it names a file by itself. -/
inductive Locates (T : Terms Service Question Question.Answer) (st : Settings)
    (rules : List Remapping) (r : Reference) (t : Traversal) (s : Service) (t' : Traversal)
    (s' : Service) : Option String → Prop
  | relative : classify st (remap rules r.path).1 = .relative →
      Run.Ends T (addLocal (relativePath r.file (remap rules r.path).1) r) t s (.ok ()) t' s' →
      Locates T st rules r t s t' s' (some (relativePath r.file (remap rules r.path).1))
  | found : classify st (remap rules r.path).1 ≠ .relative →
      Run.Ends T (addLocal (remap rules r.path).1 r) t s (.ok ()) t' s' →
      Locates T st rules r t s t' s' (some (remap rules r.path).1)
  | skipped {f : ParseFault} : packageOf st rules r = .error f →
      Run.Ends T (collecting (Resolve.warn
        (.parseFailure ("import " ++ quoted r.path ++ " in " ++ r.file) f.message))) t s (.ok ()) t' s' →
      Locates T st rules r t s t' s' none
  | package {p : PackageReference} {path : String} : packageOf st rules r = .ok p →
      Run.Ends T (awaitPackage r p) t s (.ok path) t' s' → Locates T st rules r t s t' s' (some path)

variable {T : Terms Service Question Question.Answer} {S : Service → Prop} {st : Settings}
  {rules : List Remapping} {t t' : Traversal} {s s' : Service} {r : Reference}

/-- The settings that a routine reads are those that all states share. -/
lemma settings_of_ends {ρ : Type} {st' : Settings} {t t' : ρ}
    (h : Run.Ends T (Stateful.work Work.settings : Stateful ρ Settings) t s (.ok st') t' s')
    (hS : ∀ s, S s → s.settings = st) (hs : S s) : st' = st ∧ t' = t ∧ s' = s := by
  obtain ⟨-, rfl, rfl, rfl⟩ := Stateful.ends_settings.mp h
  exact ⟨hS _ hs, rfl, rfl⟩

/-- To ask whether an import names a file changes nothing. -/
lemma eq_of_isFile {literal : String} {found : Bool}
    (h : Run.Ends T (isFile literal r) t s (.ok found) t' s') : t' = t := by
  by_cases hb : t.bundle.contains literal = true
  · unfold Run.Ends at h
    rw [isFile_of_contains r hb] at h
    exact (congrArg Prod.snd h.1).symm
  · obtain ⟨next, hask, hok, herror⟩ := isFile_of_not_contains r hb
    unfold Run.Ends at h
    rw [hask] at h
    obtain ⟨a, v, -, -, h⟩ := h
    cases a with
    | ok there =>
      rw [hok there] at h
      exact (congrArg Prod.snd h.1).symm
    | error e =>
      obtain ⟨f, hf⟩ := herror e
      rw [hf] at h
      exact nomatch h.1

/-- Every import is located in one of these ways. -/
theorem exists_locates {path? : Option String} (hT : T.Meet (quiet S))
    (hS : ∀ s, S s → s.settings = st) (hs : S s)
    (h : Run.Ends T (locate r (remap rules r.path).1) t s (.ok path?) t' s') :
    ∃ v, S v ∧ Locates T st rules r t v t' s' path? := by
  obtain ⟨st', t, s, hst, h₁⟩ := Run.ends_bind_ok.mp h
  obtain ⟨rfl, rfl, rfl⟩ := settings_of_ends hst hS hs
  dsimp only at h₁
  split at h₁
  · next hc =>
    obtain ⟨_, u, v, ha, h₂⟩ := Run.ends_bind_ok.mp h₁
    obtain ⟨⟨⟩, rfl, rfl⟩ := Run.ends_pure.mp h₂
    exact ⟨_, hs, .relative hc ha⟩
  · next hc =>
    with_reducible obtain ⟨found, u, v, hf, h₂⟩ := Run.ends_bind_ok.mp h₁
    have hv : S v ∧ u = t := by
      split at hf
      · exact ⟨((plain_isFile (I := Traversal.Grows) _ r).ends hT hs hf).2, eq_of_isFile hf⟩
      · obtain ⟨-, rfl, rfl⟩ := Run.ends_pure.mp hf
        exact ⟨hs, rfl⟩
    obtain ⟨hv, rfl⟩ := hv
    split at h₂
    · obtain ⟨_, u', v', ha, h₃⟩ := Run.ends_bind_ok.mp h₂
      obtain ⟨⟨⟩, rfl, rfl⟩ := Run.ends_pure.mp h₃
      exact ⟨v, hv, .found hc ha⟩
    · obtain ⟨st'', _, _, hst, h₃⟩ := Run.ends_bind_ok.mp h₂
      obtain ⟨rfl, rfl, rfl⟩ := settings_of_ends hst hS hv
      split at h₃
      · next f hp =>
        obtain ⟨_, u', v', hw, h₄⟩ := Run.ends_bind_ok.mp h₃
        obtain ⟨⟨⟩, rfl, rfl⟩ := Run.ends_pure.mp h₄
        exact ⟨_, hv, .skipped hp hw⟩
      · next p hp =>
        obtain ⟨path, u', v', hw, h₄⟩ := Run.ends_bind_ok.mp h₃
        obtain ⟨⟨⟩, rfl, rfl⟩ := Run.ends_pure.mp h₄
        exact ⟨_, hv, .package hp hw⟩

lemma contains_of_addLocal {path : String} {a : Unit}
    (h : Run.Ends T (addLocal path r) t s (.ok a) t' s') : t'.bundle.contains path = true := by
  obtain ⟨_, _, _, hg, h₁⟩ := Run.ends_bind_ok.mp h
  obtain ⟨⟨⟩, rfl, rfl⟩ := Run.ends_get.mp hg
  split at h₁
  · next hc =>
    obtain ⟨-, rfl, -⟩ := Run.ends_pure.mp h₁
    exact hc
  · obtain ⟨content, u, v, -, hm⟩ := Run.ends_bind_ok.mp h₁
    obtain ⟨-, rfl, -⟩ := Run.ends_modify.mp hm
    exact Option.isSome_iff_exists.mpr ⟨content, Table.get?_insert_self _ _ _⟩

/-- After an import has asked for a version of its package, it waits for its file in that version. -/
structure Awaits (st : Settings) (r : Reference) (p : PackageReference) (t t' : Traversal)
    (path version : String) : Prop where
  path : path = (waitingFor r p version).path st
  chosen : Chosen p version t.context.session t'.context.session
  waiting : t'.waiting = t.waiting ++ [waitingFor r p version]
  bundle : t'.bundle = t.bundle
  fetched : t'.fetched = t.fetched
  next : t'.next = t.next

theorem awaits_of_awaitPackage {p : PackageReference} {path : String} (hT : T.Meet (quiet S))
    (hS : ∀ s, S s → s.settings = st) (hs : S s)
    (h : Run.Ends T (awaitPackage r p) t s (.ok path) t' s') :
    ∃ version, Awaits st r p t t' path version := by
  unfold awaitPackage at h
  split at h
  · exact absurd h Run.not_ends_throw
  · obtain ⟨_, _, _, hg, h₁⟩ := Run.ends_bind_ok.mp h
    obtain ⟨⟨⟩, rfl, rfl⟩ := Run.ends_get.mp hg
    obtain ⟨resolved, u, v, hr, h₂⟩ := Run.ends_bind_ok.mp h₁
    have hv : S v := ((keeps_choosing (Resolve.keeps_resolve _ _)).ends hT hs hr).2
    obtain ⟨u', hr', rfl⟩ := Run.ends_zoom.mp hr
    obtain ⟨_, _, _, hm, h₃⟩ := Run.ends_bind_ok.mp h₂
    obtain ⟨-, rfl, rfl⟩ := Run.ends_modify.mp hm
    obtain ⟨st', _, _, hst, h₄⟩ := Run.ends_bind_ok.mp h₃
    obtain ⟨rfl, rfl, rfl⟩ := settings_of_ends hst hS hv
    obtain ⟨⟨⟩, rfl, rfl⟩ := Run.ends_pure.mp h₄
    exact ⟨resolved.version, rfl, Resolve.chosen_of_resolve hr', rfl, rfl, rfl, rfl⟩

end SourceBundle.Bundle
