/-
# The written forms of package keys

A key is read from its text, because the last at sign of the text stands before the version.  The path of a
file of a package is the directory of the packages, the text of the key, and the path of the file inside the
package; so two files of one package have two paths.
-/
import Mathlib.Data.List.Basic
import SourceBundle.PackageKey
import SourceBundle.Proofs.Text.Cut

namespace SourceBundle.PackageKey

open SourceBundle.Text

variable {k : PackageKey} {st : Settings} {f g : String}

lemma toList_render (k : PackageKey) : k.render.toList = k.name.toList ++ '@' :: k.version.toList := by
  rw [render]
  simp [toString, String.toList_append]

/-- A key is read from its text. -/
lemma parse?_render (hname : k.name ≠ "" ∧ k.name ≠ "@") (hversion : k.version ≠ "")
    (hat : '@' ∉ k.version.toList) : parse? k.render = some k := by
  have hcut : cutLast? '@' k.render.toList = some (k.name.toList, k.version.toList) := by
    rw [toList_render]
    exact cutLast?_append hat
  have hempty : k.name.toList ≠ [] := by simpa using hname.1
  have halone : k.name.toList ≠ ['@'] := fun h => hname.2 (String.toList_injective h)
  have hnone : k.version.toList ≠ [] := by simpa using hversion
  simp [parse?, hcut, hempty, halone, hnone]

lemma toList_root (k : PackageKey) (st : Settings) :
    (k.root st).toList = st.packageDir.toList ++ k.render.toList := by
  rw [root, String.toList_append]

lemma pathFor_of_ne (hf : f ≠ "") : k.pathFor st f = k.root st ++ "/" ++ f := by
  have hempty : f.isEmpty = false := by simpa using hf
  rw [pathFor, hempty]
  rfl

lemma toList_pathFor (k : PackageKey) (st : Settings) (hf : f ≠ "") :
    (k.pathFor st f).toList = (k.root st).toList ++ '/' :: f.toList := by
  rw [pathFor_of_ne hf]
  simp [String.toList_append]

/-- What the path of a file has behind the directory of its package tells which file it is. -/
lemma exists_toList_pathFor (k : PackageKey) (st : Settings) (f : String) :
    ∃ tail, (k.pathFor st f).toList = (k.root st).toList ++ tail ∧
      (f = "" ∧ tail = [] ∨ tail = '/' :: f.toList) := by
  by_cases hf : f = ""
  · subst hf
    exact ⟨[], by simp [pathFor], .inl ⟨rfl, rfl⟩⟩
  · exact ⟨'/' :: f.toList, toList_pathFor k st hf, .inr rfl⟩

lemma pathFor_injective (k : PackageKey) (st : Settings) : Function.Injective (k.pathFor st) := by
  intro f g h
  obtain ⟨tail, hf, htail⟩ := exists_toList_pathFor k st f
  obtain ⟨tail', hg, htail'⟩ := exists_toList_pathFor k st g
  obtain rfl : tail = tail' := List.append_cancel_left (hf.symm.trans ((congrArg String.toList h).trans hg))
  rcases htail with ⟨rfl, rfl⟩ | rfl
  · rcases htail' with ⟨rfl, -⟩ | hcons
    · rfl
    · exact nomatch hcons
  · rcases htail' with ⟨-, hnil⟩ | hcons
    · exact nomatch hnil
    · exact String.toList_injective (List.cons.inj hcons).2

end SourceBundle.PackageKey
