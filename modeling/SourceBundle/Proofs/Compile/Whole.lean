/-
# Only whole bundles are compiled

Among the requests that run beside each other in any order, the compiler is asked to compile a
target with imports only with the bundle of a complete traversal.  A traversal that was stopped ends
in a state in which its run is not current, and there is no pause before the next check of the run.
-/
import SourceBundle.Proofs.Bundle.Complete
import SourceBundle.Proofs.Compile.Undisturbed

namespace SourceBundle

variable {T : Terms Service Question Question.Answer} {S : Service → Prop} {α : Type}
  {s s' : Service}

/-- A traversal that was stopped ends in a state in which its run is not current. -/
lemma Bundle.Course.not_current {shelf depth : Nat} {rules : List Import.Remapping}
    {entry : String} {level : List String} {t t' : Traversal} {ls : List Level} {complete : Bool}
    (h : Course T shelf rules entry depth level t s ls complete t' s') (hc : complete = false)
    (hn : t'.context.Numbered) : ¬ t'.context.CurrentIn s' := by
  induction h with
  | complete => exact nomatch hc
  | stopped hcheck hlog =>
    -- the record that is written after the check does not count for the run
    obtain ⟨rfl, hcur⟩ := Work.check_of_ends hn hcheck
    rw [hn.currentIn_iff (Work.kept_of_log hlog), ← hcur]
    exact Bool.false_ne_true
  | level _ _ _ _ ih => exact ih hc hn

namespace Compile

open SourceBundle.Bundle

variable {budget : Nat} {s₀ : Service} {sources bundle : Bundle} {target content : String}
  {given? : Option String} {c c' : Context} {id : Nat} {h : List Happening}
  {w : Crowd Service Question Question.Answer Request Reply}

/-- The content that a resolution starts from: the given one, or one that the workspace has
answered. -/
def StartsFrom (T : Terms Service Question Question.Answer) (given? : Option String)
    (target content : String) : Prop :=
  given? = some content ∨ given? = none ∧ T.answer (.read target) (.ok content)

lemma startsFrom_of_entryContent
    (h : Attempt.Ends T (entryContent given? target) s (.ok content) s') :
    StartsFrom T given? target content := by
  cases given? with
  | some given =>
    obtain ⟨⟨⟩, rfl⟩ := h
    exact Or.inl rfl
  | none => exact Or.inr ⟨rfl, Workspace.answer_of_readTwice h⟩

/-- A resolution that gives a bundle is a build from the content of the target. -/
lemma build_of_resolve (h : (resolve budget given? c).Ends T s (.ok bundle, c') s') :
    ∃ content v, Attempt.Ends T (entryContent given? c.target) s (.ok content) v ∧
      (build (currentBuilder v) budget c.target content c).Ends T v (.ok bundle, c') s' := by
  obtain ⟨r, v, he, h₁⟩ := Routine.ends_bind.mp h
  cases r with
  | error f => exact nomatch h₁.1
  | ok content =>
    obtain ⟨b, x, hg, h₂⟩ := Routine.ends_bind.mp h₁
    obtain ⟨-, rfl, rfl⟩ := Work.ends_gets.mp hg
    exact ⟨content, _, he, h₂⟩

/-- A bundle is whole: it is that of a complete traversal from the content that the resolution
starts from, it is closed, and it is the bundle of the context. -/
structure Whole (T : Terms Service Question Question.Answer) (st : Settings) (given? : Option String)
    (target : String) (bundle : Bundle) (c : Context) : Prop where
  noted : c.bundle? = some bundle
  traversed : ∃ content rules ls b c₀ t s t' s', StartsFrom T given? target content ∧
    Went T b target content c₀ rules ls true t s t' s' ∧ bundle = t'.bundle ∧
    Closed st rules target content bundle c ls

/-- If the run is current after its resolution, the bundle is whole. -/
theorem whole_of_resolve {st : Settings} (hT : T.Meet (quiet S)) (hS : ∀ s, S s → s.settings = st)
    (hs : S s) (hc : c.Numbered) (hnew : c.scanned = [])
    (h : (resolve budget given? c).Ends T s (.ok bundle, c') s') (hcur : c'.CurrentIn s') :
    Whole T st given? c.target bundle c' := by
  have hrun : c.SameRun c' := ((obeys_resolve budget given? c).ends hT hs h).1
  obtain ⟨content, v, he, hb⟩ := build_of_resolve h
  have hv : S v := ((lawful_entryContent given? c.target).ends hT hs he).2
  obtain ⟨rules, ls, complete, t, u, t', u', hw, hu, -, rfl, hc₁, hc₂⟩ := exists_went hT hv hb
  cases complete with
  | false =>
    -- nothing lies between the end of a stopped traversal and that of the resolution
    obtain ⟨rfl, rfl⟩ := hc₂ rfl
    exact absurd hcur (hw.course.not_current rfl (hrun.numbered hc))
  | true =>
    obtain ⟨rfl, -⟩ := hc₁ rfl
    exact ⟨rfl, content, rules, ls, _, c, t, u, t', u', startsFrom_of_entryContent he, hw, rfl,
      (hw.closed hT hS hu hnew).noteBundle _⟩

end Compile

end SourceBundle
