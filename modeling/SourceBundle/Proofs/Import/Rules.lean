/-
# Which rules there are

A line is a rule if it has something on both sides of its first equals sign and is no comment.  A project
configuration is an object with up to three lists of lines: at the top level, among the settings of the
compiler, and of the compiler itself.  A configuration that is none, or one of whose lists is none, has no
lines at all.

Of several rules the first that applies counts.  So rules that are put behind others change nothing for the
imports to which one of the others applies.
-/
import Mathlib.Data.List.Forall2
import SourceBundle.Import.Remapping
import SourceBundle.Proofs.Text.Cut

namespace SourceBundle.Import

open SourceBundle.Text

variable {origin line literal : String} {ls : List String} {r : Remapping} {rules : List Remapping}
  {config : Json} {v : Option Json}

/-! ## Lines -/

/-- A line that is a rule. -/
structure RuleOf (origin line : String) (r : Remapping) : Prop where
  origin : r.origin = origin
  noHash : ¬ ['#'] <+: trimChars line.toList
  noSlashes : ¬ ['/', '/'] <+: trimChars line.toList
  sides : ∃ front back, trimChars line.toList = front ++ '=' :: back ∧ '=' ∉ front ∧
    r.source = String.ofList (trimChars front) ∧ r.target = String.ofList (trimChars back)
  source : r.source ≠ ""
  target : r.target ≠ ""

lemma ofList_ne_empty {cs : List Char} : String.ofList cs ≠ "" ↔ cs.isEmpty = false := by
  cases cs <;> simp

theorem read_eq_rule_iff : Remapping.Line.read origin line = .rule r ↔ RuleOf origin line r := by
  unfold Remapping.Line.read
  constructor
  · intro h
    dsimp only at h
    split at h
    · cases h
    · next hrule =>
      simp only [Bool.or_eq_true, beginsWith_iff, not_or] at hrule
      split at h
      · cases h
      · next front back hcut =>
        have hline := append_cutFirst '=' (trimChars line.toList)
        rw [hcut] at hline
        have hfront := notMem_cutFirst '=' (trimChars line.toList)
        rw [hcut] at hfront
        split at h
        · cases h
        · next hsides =>
          obtain rfl := Remapping.Line.rule.inj h
          rw [Bool.or_eq_true, not_or, Bool.not_eq_true, Bool.not_eq_true] at hsides
          exact ⟨rfl, hrule.1.2, hrule.2, ⟨front, back, hline.symm, hfront, rfl, rfl⟩,
            ofList_ne_empty.mpr hsides.1, ofList_ne_empty.mpr hsides.2⟩
  · rintro ⟨rfl, hhash, hslashes, ⟨front, back, hline, hfront, hsource, htarget⟩, hne, hne'⟩
    have hrule : ¬ ((trimChars line.toList).isEmpty || beginsWith ['#'] (trimChars line.toList) ||
        beginsWith ['/', '/'] (trimChars line.toList)) = true := by
      simp only [Bool.or_eq_true, beginsWith_iff, not_or]
      exact ⟨⟨by simp [hline], hhash⟩, hslashes⟩
    have hcut : cutFirst '=' (trimChars line.toList) = (front, some back) := by
      rw [hline, cutFirst_append hfront]
    rw [hsource] at hne
    rw [htarget] at hne'
    simp only [if_neg hrule, hcut, ofList_ne_empty.mp hne, ofList_ne_empty.mp hne', Bool.or_self,
      Bool.false_eq_true, if_false, ← hsource, ← htarget]

/-- The rules of some lines, in their order; lines that are none are passed over. -/
inductive Rules (origin : String) : List String → List Remapping → Prop
  | nil : Rules origin [] []
  | rule {line : String} {ls : List String} {r : Remapping} {rules : List Remapping} :
    RuleOf origin line r → Rules origin ls rules → Rules origin (line :: ls) (r :: rules)
  | none {line : String} {ls : List String} {rules : List Remapping} :
    (∀ r, ¬ RuleOf origin line r) → Rules origin ls rules → Rules origin (line :: ls) rules

theorem rules_ofLines (origin : String) (ls : List String) :
    Rules origin ls (Remapping.ofLines origin ls) := by
  induction ls with
  | nil => exact .nil
  | cons line ls ih =>
    cases h : Remapping.Line.read origin line with
    | rule r =>
      have hcons : Remapping.ofLines origin (line :: ls) = r :: Remapping.ofLines origin ls := by
        simp [Remapping.ofLines, h, Remapping.Line.rule?]
      rw [hcons]
      exact .rule (read_eq_rule_iff.mp h) ih
    | _ =>
      have hcons : Remapping.ofLines origin (line :: ls) = Remapping.ofLines origin ls := by
        simp [Remapping.ofLines, h, Remapping.Line.rule?]
      rw [hcons]
      exact .none (fun r hr => nomatch h.symm.trans (read_eq_rule_iff.mpr hr)) ih

lemma Rules.source_ne (h : Rules origin ls rules) (hr : r ∈ rules) : r.source ≠ "" := by
  induction h with
  | nil => cases hr
  | rule hline _ ih =>
    rcases List.mem_cons.mp hr with rfl | hr
    · exact hline.source
    · exact ih hr
  | none _ _ ih => exact ih hr

/-! ## Project configurations -/

/-- The lines of a list in a project configuration: an array of texts; a list that is missing, or null, has
none. -/
inductive Listed : Option Json → List String → Prop
  | missing : Listed none []
  | null : Listed (some .null) []
  | texts (ls : List String) : Listed (some (.array (ls.map .text))) ls

/-- A part succeeds on all of some values if it succeeds on each of them. -/
lemma mapM_eq_ok_iff {ε α β : Type} {f : α → Except ε β} {as : List α} {bs : List β} :
    as.mapM f = .ok bs ↔ List.Forall₂ (fun a b => f a = .ok b) as bs := by
  induction as generalizing bs with
  | nil => cases bs <;> simp [pure, Except.pure]
  | cons a as ih =>
    rw [List.mapM_cons]
    cases ha : f a with
    | error e => cases bs <;> simp [ha, bind, Except.bind]
    | ok b =>
      cases has : as.mapM f with
      | error e =>
        have hnone : ∀ bs, ¬ List.Forall₂ (fun a b => f a = .ok b) as bs := fun bs h =>
          nomatch has.symm.trans (ih.mpr h)
        cases bs <;> simp [hnone, bind, Except.bind]
      | ok bs' =>
        have hsome : ∀ bs, List.Forall₂ (fun a b => f a = .ok b) as bs ↔ bs' = bs := fun bs =>
          ih.symm.trans (by rw [has, Except.ok.injEq])
        cases bs <;> simp [ha, hsome, bind, Except.bind, pure, Except.pure]

/-- The items of a list are texts. -/
lemma linesOfList_array_eq_ok_iff {items : List Json} :
    Remapping.linesOfList (some (.array items)) = .ok ls ↔ items = ls.map .text := by
  unfold Remapping.linesOfList
  rw [mapM_eq_ok_iff, ← List.forall₂_eq_eq_eq, List.forall₂_map_right_iff]
  constructor
  · intro h
    refine h.imp fun i l hi => ?_
    cases i with
    | text t => rw [Except.ok.inj hi]
    | _ => cases hi
  · intro h
    refine h.imp fun i l hi => ?_
    rw [hi]
    rfl

theorem linesOfList_eq_ok_iff : Remapping.linesOfList v = .ok ls ↔ Listed v ls := by
  constructor
  · intro h
    match v with
    | none =>
      obtain rfl := Except.ok.inj h
      exact .missing
    | some .null =>
      obtain rfl := Except.ok.inj h
      exact .null
    | some (.array items) =>
      rw [linesOfList_array_eq_ok_iff.mp h]
      exact .texts ls
  · intro h
    cases h with
    | missing => rfl
    | null => rfl
    | texts => exact linesOfList_array_eq_ok_iff.mpr rfl

/-- The lines of rules in a project configuration. -/
structure Entries (config : Json) (ls : List String) : Prop where
  object : config.members?.isSome
  lists : ∃ top settings compiler,
    Listed (config.member? "remappings") top ∧
    Listed (((config.member? "solidity-compiler").bind (·.member? "settings")).bind
      (·.member? "remappings")) settings ∧
    Listed ((config.member? "solidity-compiler").bind (·.member? "remappings")) compiler ∧
    ls = top ++ settings ++ compiler

lemma bind_member?_filter (v : Option Json) (name : String) :
    (v.filter fun c => c.members?.isSome).bind (·.member? name) = v.bind (·.member? name) := by
  cases v with
  | none => rfl
  | some c => cases c <;> rfl

theorem linesOfConfig_eq_ok_iff : Remapping.linesOfConfig config = .ok ls ↔ Entries config ls := by
  have hlists : Remapping.configLists config = [config.member? "remappings",
      ((config.member? "solidity-compiler").bind (·.member? "settings")).bind (·.member? "remappings"),
      (config.member? "solidity-compiler").bind (·.member? "remappings")] := by
    simp only [Remapping.configLists, bind_member?_filter]
  cases config with
  | object members =>
    have hlines : Remapping.linesOfConfig (.object members) = .ok ls ↔
        ∃ lss, (Remapping.configLists (.object members)).mapM Remapping.linesOfList = .ok lss ∧
          ls = lss.flatten := by
      unfold Remapping.linesOfConfig
      cases (Remapping.configLists (.object members)).mapM Remapping.linesOfList with
      | error e => simp [bind, Except.bind]
      | ok lss => simp [bind, Except.bind, pure, Except.pure, eq_comm]
    rw [hlines, hlists]
    simp only [mapM_eq_ok_iff, linesOfList_eq_ok_iff]
    constructor
    · rintro ⟨lss, hlss, rfl⟩
      match lss, hlss with
      | [top, settings, compiler], .cons htop (.cons hsettings (.cons hcompiler .nil)) =>
        exact ⟨rfl, top, settings, compiler, htop, hsettings, hcompiler, by simp⟩
    · rintro ⟨-, top, settings, compiler, htop, hsettings, hcompiler, rfl⟩
      exact ⟨[top, settings, compiler], .cons htop (.cons hsettings (.cons hcompiler .nil)), by simp⟩
  | _ => exact iff_of_false nofun fun h => nomatch h.object

/-! ## Rules that apply -/

lemma isSome_remapped? :
    (r.remapped? literal).isSome ↔ r.source ≠ "" ∧ r.source.toList <+: literal.toList := by
  unfold Remapping.remapped?
  by_cases hempty : r.source.isEmpty
  · have hsource : r.source = "" := String.isEmpty_iff.mp hempty
    simp [hsource]
  · have hsource : r.source ≠ "" := fun h => hempty (String.isEmpty_iff.mpr h)
    simp [hempty, hsource, isSome_dropPrefix?]

/-- To an import that is relative, or to which one of some rules applies, no further rules apply. -/
theorem remap_append {more : List Remapping}
    (h : isRelative literal = true ∨
      ∃ r ∈ rules, r.source ≠ "" ∧ r.source.toList <+: literal.toList) :
    remap (rules ++ more) literal = remap rules literal := by
  unfold remap
  split
  · rfl
  · next hrelative =>
    obtain ⟨r, hr, hsource⟩ := h.resolve_left hrelative
    have happlies : (rules.findSome? fun r => (r.remapped? literal).map fun t => (t, r)).isSome := by
      rw [List.findSome?_isSome_iff]
      exact ⟨r, hr, by simpa using isSome_remapped?.mpr hsource⟩
    rw [List.findSome?_append, Option.or_of_isSome happlies]

end SourceBundle.Import
