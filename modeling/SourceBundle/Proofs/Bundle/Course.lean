/-
# The course of a traversal

A traversal that ends without a fault has gone through some levels.  Its course lists them, each
with its files and with all imports of these files in the order in which they were followed, and
for every import the path that it resolved to, if it was not skipped.  A complete traversal ends at
an empty level, a stopped one when the run is found to be no longer current.
-/
import SourceBundle.Proofs.Bundle.Growth

namespace SourceBundle.Bundle

open SourceBundle.Import SourceBundle.Text

/-- An import with the path that it resolved to; nothing for one that was skipped. -/
abbrev Followed := Reference × Option String

/-- A level of a traversal: its files, and their imports as they were followed. -/
structure Level where
  /-- The files. -/
  files : List String
  /-- The imports of the files. -/
  imports : List Followed

/-- The imports of a file of the bundle. -/
def referencesOf (bundle : Bundle) (file : String) : List Reference :=
  extract ((bundle.get? file).getD "") file

lemma file_of_mem_extract {text file : String} {r : Reference} (h : r ∈ extract text file) :
    r.file = file := by
  unfold extract at h
  split at h
  · obtain ⟨span, -, rfl⟩ := List.mem_map.mp h
    rfl
  · exact nomatch h

/-- Some imports are followed one after the other; each is located as it is remapped, and what it
resolved to is noted. -/
inductive Follows (T : Terms Service Question Question.Answer) (rules : List Remapping) :
    List Reference → Traversal → Service → List Followed → Traversal → Service → Prop
  | done {t : Traversal} {s : Service} : Follows T rules [] t s [] t s
  | skipped {r : Reference} {rs : List Reference} {is : List Followed} {t u t' : Traversal}
      {s v s' : Service} :
      Run.Ends T (locate r (remap rules r.path).1) t s (.ok none) u v →
      Follows T rules rs u v is t' s' → Follows T rules (r :: rs) t s ((r, none) :: is) t' s'
  | resolved {r : Reference} {rs : List Reference} {is : List Followed} {t u t' : Traversal}
      {s v s' : Service} {path : String} :
      Run.Ends T (locate r (remap rules r.path).1) t s (.ok (some path)) u v →
      Follows T rules rs { u with context := noteImport rules r path u.context } v is t' s' →
      Follows T rules (r :: rs) t s ((r, some path) :: is) t' s'

/-- Some files are scanned one after the other: each is marked, and its imports are followed. -/
inductive Scans (T : Terms Service Question Question.Answer) (rules : List Remapping) :
    List String → Traversal → Service → List Followed → Traversal → Service → Prop
  | done {t : Traversal} {s : Service} : Scans T rules [] t s [] t s
  | file {f : String} {fs : List String} {is js : List Followed} {t u t' : Traversal}
      {s v s' : Service} :
      Follows T rules (referencesOf t.bundle f) { t with context := t.context.markScanned f } s is
        u v →
      Scans T rules fs u v js t' s' → Scans T rules (f :: fs) t s (is ++ js) t' s'

/-- The course of a traversal; the flag tells whether it is complete. -/
inductive Course (T : Terms Service Question Question.Answer) (shelf : Nat)
    (rules : List Remapping) (entry : String) :
    Nat → List String → Traversal → Service → List Level → Bool → Traversal → Service → Prop
  | complete {depth : Nat} {t : Traversal} {s : Service} :
      Course T shelf rules entry depth [] t s [] true t s
  | stopped {depth : Nat} {f : String} {fs : List String} {t : Traversal} {s v s' : Service} :
      (Work.contextIsCurrent t.context).Ends T s false v →
      (Work.log (.buildStopped entry)).Ends T v () s' →
      Course T shelf rules entry depth (f :: fs) t s [] false t s'
  | level {depth : Nat} {f : String} {fs next : List String} {is : List Followed}
      {ls : List Level} {b : Bool} {t u w t' : Traversal} {s v x y s' : Service} :
      (Work.contextIsCurrent t.context).Ends T s true v →
      Scans T rules (f :: fs) { t with next := [], waiting := [] } v is u x →
      Run.Ends T (completeLevel shelf depth (f :: fs).length) u x (.ok next) w y →
      Course T shelf rules entry (depth + 1) next w y ls b t' s' →
      Course T shelf rules entry depth (f :: fs) t s (⟨f :: fs, is⟩ :: ls) b t' s'

variable {T : Terms Service Question Question.Answer} {rules : List Remapping} {shelf : Nat}
  {entry : String} {t t' : Traversal} {s s' : Service}

/-! ## Every traversal has a course -/

theorem exists_follows {rs : List Reference} {a : PUnit}
    (h : Run.Ends T (rs.forM (followImport rules)) t s (.ok a) t' s') :
    ∃ is, Follows T rules rs t s is t' s' := by
  induction rs generalizing t s with
  | nil =>
    obtain ⟨-, rfl, rfl⟩ := Run.ends_pure.mp h
    exact ⟨[], .done⟩
  | cons r rs ih =>
    obtain ⟨_, u, v, hr, hrs⟩ := Run.ends_bind_ok.mp h
    obtain ⟨path?, u', v', hl, hn⟩ := Run.ends_bind_ok.mp hr
    cases path? with
    | none =>
      obtain ⟨-, rfl, rfl⟩ := Run.ends_pure.mp hn
      obtain ⟨is, his⟩ := ih hrs
      exact ⟨_, .skipped hl his⟩
    | some path =>
      obtain ⟨-, rfl, rfl⟩ := Run.ends_modify.mp hn
      obtain ⟨is, his⟩ := ih hrs
      exact ⟨_, .resolved hl his⟩

theorem exists_scans {files : List String} {a : PUnit}
    (h : Run.Ends T (files.forM (scan rules)) t s (.ok a) t' s') :
    ∃ is, Scans T rules files t s is t' s' := by
  induction files generalizing t s with
  | nil =>
    obtain ⟨-, rfl, rfl⟩ := Run.ends_pure.mp h
    exact ⟨[], .done⟩
  | cons f fs ih =>
    obtain ⟨_, u, v, hf, hfs⟩ := Run.ends_bind_ok.mp h
    obtain ⟨_, u', v', hm, hf₁⟩ := Run.ends_bind_ok.mp hf
    obtain ⟨-, rfl, rfl⟩ := Run.ends_modify.mp hm
    obtain ⟨is, his⟩ := exists_follows hf₁
    obtain ⟨js, hjs⟩ := ih hfs
    exact ⟨is ++ js, .file his hjs⟩

theorem exists_course {budget depth : Nat} {level : List String} {b : Bool}
    (h : Run.Ends T (traverse shelf rules entry budget depth level) t s (.ok b) t' s') :
    ∃ ls, Course T shelf rules entry depth level t s ls b t' s' := by
  induction budget generalizing depth level t s with
  | zero =>
    cases level with
    | nil =>
      obtain ⟨⟨⟩, rfl, rfl⟩ := Run.ends_pure.mp h
      exact ⟨[], .complete⟩
    | cons f fs => exact absurd h Run.not_ends_throw
  | succ budget ih =>
    cases level with
    | nil =>
      obtain ⟨⟨⟩, rfl, rfl⟩ := Run.ends_pure.mp h
      exact ⟨[], .complete⟩
    | cons f fs =>
      obtain ⟨_, _, _, hg, h₁⟩ := Run.ends_bind_ok.mp h
      obtain ⟨⟨⟩, rfl, rfl⟩ := Run.ends_get.mp hg
      obtain ⟨current, _, v, hc, h₂⟩ := Run.ends_bind_ok.mp h₁
      obtain ⟨_, hcur, ⟨⟩, rfl⟩ := Stateful.ends_work.mp hc
      cases current with
      | false =>
        obtain ⟨_, _, _, hl, h₃⟩ := Run.ends_bind_ok.mp h₂
        obtain ⟨_, hlog, -, rfl⟩ := Stateful.ends_work.mp hl
        obtain ⟨⟨⟩, rfl, rfl⟩ := Run.ends_pure.mp h₃
        exact ⟨[], .stopped hcur hlog⟩
      | true =>
        obtain ⟨next, w, y, hl, h₃⟩ := Run.ends_bind_ok.mp h₂
        obtain ⟨_, _, _, hm, hl₁⟩ := Run.ends_bind_ok.mp hl
        obtain ⟨-, rfl, rfl⟩ := Run.ends_modify.mp hm
        obtain ⟨_, u, x, hs, hl₂⟩ := Run.ends_bind_ok.mp hl₁
        obtain ⟨is, his⟩ := exists_scans hs
        obtain ⟨ls, hls⟩ := ih h₃
        exact ⟨_, .level hcur his hl₂ hls⟩

end SourceBundle.Bundle
