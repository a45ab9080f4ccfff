/-
# What a clean index has persisted

As long as nobody else writes the file of the index, and the load could read it, an index that is clean
while nobody saves has persisted all its records: a change makes it dirty, a snapshot that is taken makes
it clean, and if the snapshot cannot be written, it is dirty again.
-/
import SourceBundle.Proofs.Index.Snapshots

namespace SourceBundle.Index

open Crowd

/-! ## The file -/

/-- What an event does to the content of a file. -/
def writing (path : String) : Happening → Option String → Option String
  | .answered _ (.write p text) (.ok _) => fun file => if p = path then some text else file
  | _ => id

/-- The content of a file, if it is there, after what has happened. -/
def fileAfter (path : String) (file : Option String) (h : List Happening) : Option String :=
  h.foldr (writing path) file

/-- The records of a file.  A file that is not there, or whose content is rejected, holds none. -/
def persisted (file : Option String) : IndexData := (file.map decode).getD ∅

/-- What an answer says about a file is so. -/
def Fits (path : String) (file : Option String) : (q : Question) → q.Answer → Prop
  | .probe p, .ok there => p = path → there = file.isSome
  | .read p, .ok content => p = path → file = some content
  | _, _ => True

/-- Nobody else writes the file: whatever is answered about it is so. -/
def Honest (path : String) (file : Option String) : List Happening → Prop
  | [] => True
  | .answered _ q a :: h => Fits path (fileAfter path file h) q a ∧ Honest path file h
  | _ :: h => Honest path file h

/-- The workspace fails only with its own faults. -/
def OwnFaults (h : List Happening) : Prop :=
  ∀ n q f, .answered n q (.error f) ∈ h → ∃ e, f = .workspace e

/-- A load could not read the file. -/
def failedRead (n : Nat) : Happening → Bool
  | .answered m (.read _) (.error _) => m == n
  | _ => false

/-- A load has given the file up: it could not learn whether it is there, or could not read it twice. -/
def GaveUp (path : String) (h : List Happening) (n : Nat) : Prop :=
  (∃ f, .answered n (.probe path) (.error f) ∈ h) ∨ 2 ≤ h.countP (failedRead n)

/-- Nothing has been changed yet, and no load has given the file up. -/
structure Fresh (path : String) (h : List Happening) : Prop where
  unedited : ∀ n e, .begun n (.edit e) ∉ h
  reached : ∀ n, ¬ GaveUp path h n

variable {path : String} {file : Option String} {c c' : Clerks} {d d' : Picture}
  {front back : List Clerk} {x : Clerk}

lemma Honest.of_append {news h : List Happening} (hh : Honest path file (news ++ h)) :
    Honest path file h := by
  induction news with
  | nil => exact hh
  | cons e news ih =>
    cases e with
    | answered n q a => exact ih hh.2
    | _ => exact ih hh

lemma OwnFaults.of_append {news h : List Happening} (hh : OwnFaults (news ++ h)) : OwnFaults h :=
  fun n q f hm => hh n q f (List.mem_append_right _ hm)

lemma Fresh.of_append {news h : List Happening} (hh : Fresh path (news ++ h)) : Fresh path h where
  unedited n e hm := hh.unedited n e (List.mem_append_right _ hm)
  reached n hg := by
    refine hh.reached n (hg.imp (fun hf => hf.imp fun f hm => List.mem_append_right _ hm) fun htwo => ?_)
    rw [List.countP_append]
    exact Nat.le_add_left_of_le htwo

/-! ## One load at a time -/

/-- The loads that are under way, with their tickets. -/
def Picture.loaders (d : Picture) : List (Nat × Nat) := d.clerks.filterMap Clerk.load?

/-- At most one load is under way, and then the index is not loaded. -/
structure Picture.Lone (d : Picture) : Prop where
  one : d.loaders.length ≤ 1
  waits : ∀ l ∈ d.loaders, d.index.loaded = false ∧ d.index.loading? = some l.2 ∧
    d.index.loadOutcome? l.2 = none

namespace Picture.Lone

lemma keep (h : d.Lone) (hsub : d'.loaders.Subperm d.loaders)
    (hloaded : d'.index.loaded = d.index.loaded) (hloading : d'.index.loading? = d.index.loading?)
    (hloads : d'.index.loads = d.index.loads) : d'.Lone where
  one := hsub.length_le.trans h.one
  waits l hl := by
    rw [hloaded, hloading, loadOutcome?, hloads]
    exact h.waits l (hsub.subset hl)

lemma subperm_go {y : Option Clerk} (hc : d.clerks = front ++ x :: back)
    (hc' : d'.clerks = y.toList ++ (front ++ back)) (hy : ∀ z ∈ y, z.load? = x.load?) :
    d'.loaders.Subperm d.loaders := by
  have hperm := filterMap_perm Clerk.load? hc
  refine List.Subperm.trans (List.Sublist.subperm ?_) hperm.symm.subperm
  rw [Picture.loaders, hc', List.filterMap_append]
  refine List.Sublist.append ?_ (List.Sublist.refl _)
  cases y with
  | none => exact List.nil_sublist _
  | some z =>
    rw [← hy z rfl]
    cases hz : z.load? <;> simp [hz]

/-- The one load that is under way ends. -/
lemma settle (h : d.Lone) (hc : d.clerks = front ++ x :: back) (hc' : d'.clerks = front ++ back)
    (hx : x.load?.isSome = true) : d'.Lone := by
  have hperm := (filterMap_perm Clerk.load? hc).length_eq
  obtain ⟨l, hl⟩ := Option.isSome_iff_exists.mp hx
  have hone := h.one
  rw [hl, Option.toList_some, List.length_append, List.length_singleton] at hperm
  have hnil : d'.loaders = [] := by
    rw [Picture.loaders, hc', ← List.length_eq_zero_iff]
    unfold Picture.loaders at hone
    omega
  exact ⟨by simp [hnil], by simp [hnil]⟩

/-- One who stops to wait for a load changes nothing about a load that is under way. -/
lemma leave (h : d.Lone) {ticket : Nat} (hsub : d'.loaders.Subperm d.loaders)
    (hindex : d'.index = d.index.leaveLoad ticket) : d'.Lone := by
  refine ⟨hsub.length_le.trans h.one, fun l hl => ?_⟩
  obtain ⟨hloaded, hloading, hnone⟩ := h.waits l (hsub.subset hl)
  have hkeep : d.index.leaveLoad ticket = d.index := by
    unfold leaveLoad
    refine if_neg fun hcond => ?_
    simp only [Bool.and_eq_true, beq_iff_eq] at hcond
    have hticket : l.2 = ticket := Option.some_injective _ (hloading.symm.trans hcond.1.2)
    rw [← hticket, hnone] at hcond
    exact absurd hcond.1.1 (by simp)
  rw [hindex, hkeep]
  exact ⟨hloaded, hloading, hnone⟩

/-- A load begins. -/
lemma load (h : d.Lone) (ht : d.Ticketed) (hloaded : d.index.loaded = false)
    (hloading : d.index.loading? = none) (n m : Nat)
    (hc : d'.clerks = .awaiter n d.index.loadsBegun :: .starter m d.index.loadsBegun :: d.clerks)
    (hindex : d'.index = d.index.whileLoading) : d'.Lone := by
  have hnil : d.loaders = [] := by
    refine List.eq_nil_iff_forall_not_mem.mpr fun l hl => ?_
    have hsome := (h.waits l hl).2.1
    rw [hloading] at hsome
    cases hsome
  have hloaders : d'.loaders = [(m, d.index.loadsBegun)] := by
    rw [Picture.loaders, hc]
    exact congrArg (_ :: ·) hnil
  have hnone : d.index.loadOutcome? d.index.loadsBegun = none :=
    List.lookup_eq_none_iff.mpr fun l hl => by simpa using (Nat.ne_of_lt (ht.ended l hl)).symm
  refine ⟨by rw [hloaders, List.length_singleton], fun l hl => ?_⟩
  rw [hloaders, List.mem_singleton] at hl
  rw [hl, hindex]
  exact ⟨hloaded, rfl, hnone⟩

theorem move (h : d.Lone) (ht : d.Ticketed) (hm : Move path d d')
    (hreload : ∀ n, .begun n .reload ∉ d'.history) : d'.Lone := by
  cases hm with
  | edit e =>
    refine h.keep (List.Subperm.refl _) ?_ ?_ ?_ <;> rw [rewritten_apply e]
  | known _ => exact h.keep (List.Subperm.refl _) rfl rfl rfl
  | join ticket _ _ => exact h.keep (List.Subperm.refl _) rfl rfl rfl
  | load hloaded hloading => exact h.load ht hloaded hloading _ _ rfl rfl
  | reload => exact absurd List.mem_cons_self (hreload d.fresh)
  | enqueue => exact h.keep (List.Subperm.refl _) rfl rfl rfl
  | settle front back x n ticket q a r hc hl => exact h.settle hc rfl (by rw [hl.load?]; rfl)
  | learn front back n ticket r hc hr => exact h.leave (subperm_go (y := none) hc rfl (by simp)) rfl
  | leave front back n ticket hc => exact h.leave (subperm_go (y := none) hc rfl (by simp)) rfl
  | start front back n ticket hc =>
    exact h.keep (subperm_go (y := some _) hc rfl (by simp [Clerk.load?])) rfl rfl rfl
  | find front back n ticket hc =>
    exact h.keep (subperm_go (y := some _) hc rfl (by simp [Clerk.load?])) rfl rfl rfl
  | again front back n ticket f hc =>
    exact h.keep (subperm_go (y := some _) hc rfl (by simp [Clerk.load?])) rfl rfl rfl
  | take front back n ticket hc _ _ =>
    refine h.keep (subperm_go (y := some _) hc rfl fun z hz => ?_) rfl rfl rfl
    rw [← Option.mem_some.mp hz]
    unfold Clerk.saver
    split <;> rfl
  | lack front back n ticket snapshot dir hc =>
    exact h.keep (subperm_go (y := some _) hc rfl (by simp [Clerk.load?])) rfl rfl rfl
  | write front back x n ticket snapshot q a hc hp =>
    refine h.keep (subperm_go (y := some _) hc rfl fun z hz => ?_) rfl rfl rfl
    rw [← Option.mem_some.mp hz]
    cases hp <;> rfl
  | fail front back x n ticket snapshot q f hc hs =>
    refine h.keep (subperm_go (y := none) hc rfl (by simp)) ?_ ?_ ?_ <;> cases f <;> rfl
  | _ => exact h.keep (subperm_go (y := none) ‹_› rfl (by simp)) rfl rfl rfl

end Picture.Lone

/-! ## What has been persisted -/

/-- The snapshots that have been taken and are not written yet. -/
def Picture.snapshots (d : Picture) : List (Nat × String) := d.clerks.filterMap Clerk.snapshot?

/-- Who reads the file again has failed to read it. -/
def Picture.Tried (d : Picture) : Prop :=
  ∀ n ticket, .reader n ticket true ∈ d.clerks → 1 ≤ d.history.countP (failedRead n)

/-- The file holds the records of a clean index, unless a snapshot of them is on its way. -/
structure Picture.Kept (path : String) (file : Option String) (d : Picture) : Prop where
  unloaded : d.index.loaded = false → d.index.data = ∅ ∧ d.index.dirty = false ∧ d.snapshots = []
  stored : d.index.loaded = true → d.index.dirty = false → d.snapshots = [] →
    (persisted (fileAfter path file d.history)).Same d.index.data
  underway : d.index.dirty = false → ∀ w ∈ d.snapshots, w.2 = d.index.data.render

lemma snapshots_go {y : Option Clerk} (hc : d.clerks = front ++ x :: back)
    (hc' : d'.clerks = y.toList ++ (front ++ back)) (hy : y.bind Clerk.snapshot? = x.snapshot?) :
    d'.snapshots.Perm d.snapshots := by
  have hlist : y.toList.filterMap Clerk.snapshot? = x.snapshot?.toList := by
    rw [← hy]
    cases y with
    | none => rfl
    | some z => cases hz : z.snapshot? <;> simp [hz]
  rw [Picture.snapshots, hc', List.filterMap_append, hlist]
  exact (filterMap_perm Clerk.snapshot? hc).symm

/-- A change that changes anything makes the index dirty. -/
lemma apply_eq_or_dirty (e : Edit) (i : Index) : e.apply i = i ∨ (e.apply i).dirty = true := by
  cases e with
  | record source literal target =>
    simp only [Edit.apply, record]
    split
    · exact Or.inl rfl
    · split
      · exact Or.inl rfl
      · exact Or.inr rfl
  | clear source =>
    simp only [Edit.apply, clear]
    split
    · exact Or.inr rfl
    · exact Or.inl rfl

lemma Picture.Tried.move (h : d.Tried) (hm : Move path d d') : d'.Tried := by
  intro n ticket hx
  rcases hm.mem_clerks hx with hx | hcome
  · obtain ⟨news, hnews⟩ := hm.exists_news
    rw [hnews, List.countP_append]
    exact Nat.le_add_left_of_le (h n ticket hx)
  · cases hcome with
    | again n ticket f hhistory => simp [hhistory, failedRead]
    | saver m t y _ hy =>
      have hsome := congrArg Clerk.snapshot? hy
      rw [Clerk.snapshot?_saver] at hsome
      cases hsome

namespace Picture.Kept

/-- What changes nothing about the records, the file and the snapshots keeps the file right. -/
lemma keep (h : d.Kept path file) (hsnapshots : d'.snapshots.Perm d.snapshots)
    (hdata : d'.index.data = d.index.data) (hdirty : d'.index.dirty = d.index.dirty)
    (hloaded : d'.index.loaded = d.index.loaded)
    (hfile : fileAfter path file d'.history = fileAfter path file d.history) : d'.Kept path file where
  unloaded hl := by
    rw [hloaded] at hl
    obtain ⟨hempty, hclean, hnone⟩ := h.unloaded hl
    exact ⟨hdata.trans hempty, hdirty.trans hclean, (hnone ▸ hsnapshots).eq_nil⟩
  stored hl hclean hnone := by
    rw [hfile, hdata]
    exact h.stored (hloaded ▸ hl) (hdirty ▸ hclean) (hnone ▸ hsnapshots).symm.eq_nil
  underway hclean w hw := by
    rw [hdata]
    exact h.underway (hdirty ▸ hclean) w (hsnapshots.subset hw)

/-- Of a dirty index nothing is said. -/
lemma of_dirty (hloaded : d.index.loaded = true) (hdirty : d.index.dirty = true) : d.Kept path file where
  unloaded hl := absurd (hloaded.symm.trans hl) (by simp)
  stored _ hclean := absurd (hdirty.symm.trans hclean) (by simp)
  underway hclean := absurd (hdirty.symm.trans hclean) (by simp)

lemma loaded_of_snapshot (h : d.Kept path file) (hc : d.clerks = front ++ x :: back)
    {w : Nat × String} (hx : x.snapshot? = some w) : d.index.loaded = true := by
  by_contra hl
  have hmem : w ∈ d.snapshots := List.mem_filterMap.mpr ⟨x, by simp [hc], hx⟩
  rw [(h.unloaded (Bool.eq_false_iff.mpr hl)).2.2] at hmem
  cases hmem

/-- A load that does not give up obtains the records of the file. -/
lemma persisted_of_loads (htried : d.Tried) {n ticket : Nat} {q : Question} {a : q.Answer}
    {p : IndexData} (hx : x ∈ d.clerks) (hl : x.Loads path n ticket q a (.ok p))
    (hfits : Fits path (fileAfter path file d.history) q a)
    (hreached : ¬ GaveUp path (.answered n q a :: d.history) n) :
    persisted (fileAfter path file d.history) = p := by
  generalize hr : (Except.ok p : Except Fault IndexData) = r at hl
  cases hl with
  | absent =>
    cases hr
    rw [Option.isSome_eq_false_iff.mp (hfits rfl).symm |> Option.isNone_iff_eq_none.mp]
    rfl
  | unprobed f => exact absurd (Or.inl ⟨f, List.mem_cons_self⟩) hreached
  | read again content =>
    rw [hfits rfl]
    rcases recordsIn_eq content with heq | ⟨-, f, heq⟩
    · exact (Except.ok.inj (hr.trans heq)).symm
    · exact absurd (hr.trans heq) (by simp)
  | unread again f hf =>
    have hagain : again = true := by
      cases f with
      | workspace e => exact hf e rfl
      | _ => cases hr
    subst hagain
    refine absurd (Or.inr ?_) hreached
    have hone := htried n ticket hx
    rw [List.countP_cons_of_pos (by simp [failedRead])]
    exact Nat.succ_le_succ hone

/-- A load brings the records of the file. -/
lemma settle (h : d.Kept path file) (hlone : d.Lone) (htried : d.Tried) {n ticket : Nat} {q : Question}
    {a : q.Answer} {r : Except Fault IndexData} (hc : d.clerks = front ++ x :: back)
    (hl : x.Loads path n ticket q a r) (hfits : Fits path (fileAfter path file d.history) q a)
    (hreached : ¬ GaveUp path (.answered n q a :: d.history) n) :
    Picture.Kept path file ⟨front ++ back, d.index.afterReading ticket r, .answered n q a :: d.history,
      d.fresh⟩ := by
  have hfile : fileAfter path file (.answered n q a :: d.history) = fileAfter path file d.history := by
    cases hl <;> rfl
  have hsnapshots : Picture.snapshots ⟨front ++ back, d.index.afterReading ticket r,
      .answered n q a :: d.history, d.fresh⟩ |>.Perm d.snapshots := by
    refine snapshots_go (y := none) hc rfl ?_
    cases hl <;> rfl
  cases r with
  | error f => exact h.keep hsnapshots rfl rfl rfl hfile
  | ok p =>
    have hx : x ∈ d.clerks := by simp [hc]
    obtain ⟨hempty, -, hnone⟩ := h.unloaded (hlone.waits _ (List.mem_filterMap.mpr ⟨x, hx, hl.load?⟩)).1
    have hdata : (d.index.afterReading ticket (.ok p)).data = p := by
      show overlay p d.index.data = p
      rw [hempty, overlay]
      rfl
    refine ⟨fun hl => absurd hl nofun, fun _ _ _ => ?_, fun _ w hw => ?_⟩
    · show (persisted _).Same (d.index.afterReading ticket (.ok p)).data
      rw [hdata, hfile, persisted_of_loads htried hx hl hfits hreached]
    · have hmem := hsnapshots.subset hw
      simp [hnone] at hmem

/-- The first of the queue takes a snapshot. -/
lemma take (h : d.Kept path file) (hqueued : d.Queued) {n ticket : Nat}
    (hc : d.clerks = front ++ .queuer n ticket :: back) (hhead : d.index.savers.head? = some ticket)
    (hdirty : d.index.dirty = true) (e : Happening) :
    Picture.Kept path file ⟨.saver path n ticket d.index.data.render :: (front ++ back),
      { d.index with dirty := false }, e :: d.history, d.fresh⟩ := by
  have hrest : (front ++ back).filterMap Clerk.snapshot? = [] :=
    List.filterMap_eq_nil_iff.mpr (hqueued.alone hc rfl hhead)
  have hsnapshots : Picture.snapshots ⟨.saver path n ticket d.index.data.render :: (front ++ back),
      { d.index with dirty := false }, e :: d.history, d.fresh⟩ = [(ticket, d.index.data.render)] := by
    rw [Picture.snapshots, List.filterMap_cons_some (Clerk.snapshot?_saver ..), hrest]
  refine ⟨fun hl => ?_, fun _ _ hnone => ?_, fun _ w hw => ?_⟩
  · exact absurd (hdirty.symm.trans (h.unloaded hl).2.1) nofun
  · rw [hsnapshots] at hnone
    cases hnone
  · rw [hsnapshots, List.mem_singleton] at hw
    rw [hw]

/-- A snapshot is written. -/
lemma written (h : d.Kept path file) (hqueued : d.Queued) {n ticket : Nat} {snapshot : String}
    (hc : d.clerks = front ++ .writer n ticket snapshot :: back) (told : Told) :
    Picture.Kept path file ⟨front ++ back, d.index.dequeue ticket,
      .returned n told :: .answered n (.write path snapshot) (.ok ()) :: d.history, d.fresh⟩ := by
  have hloaded := h.loaded_of_snapshot hc rfl
  have hnone : (front ++ back).filterMap Clerk.snapshot? = [] :=
    List.filterMap_eq_nil_iff.mpr (hqueued.others_snapshot? hc rfl)
  refine ⟨fun hl => absurd (hloaded.symm.trans hl) nofun, fun _ hclean _ => ?_, fun _ w hw => ?_⟩
  · have htext : snapshot = d.index.data.render :=
      h.underway hclean (ticket, snapshot) (List.mem_filterMap.mpr ⟨.writer n ticket snapshot, by simp [hc], rfl⟩)
    show (persisted (if path = path then some snapshot else _)).Same d.index.data
    rw [if_pos rfl, htext]
    show (decode d.index.data.render).Same d.index.data
    rw [decode_render]
    exact d.index.data.same_ordered
  · rw [Picture.snapshots, hnone] at hw
    cases hw

theorem move (h : d.Kept path file) (hlone : d.Lone) (hqueued : d.Queued) (htried : d.Tried)
    (hm : Move path d d') (hreload : ∀ n, .begun n .reload ∉ d'.history)
    (hfresh : d.index.loaded = true ∨ Fresh path d'.history) (hhonest : Honest path file d'.history)
    (hown : OwnFaults d'.history) : d'.Kept path file := by
  cases hm with
  | edit e =>
    have hloaded : d.index.loaded = true :=
      hfresh.resolve_right fun hf => hf.unedited d.fresh e (by simp)
    rcases apply_eq_or_dirty e d.index with heq | hdirty
    · rw [heq]
      exact h.keep (.refl _) rfl rfl rfl rfl
    · refine of_dirty ?_ hdirty
      rw [rewritten_apply e]
      exact hloaded
  | known _ => exact h.keep (.refl _) rfl rfl rfl rfl
  | join ticket _ _ => exact h.keep (.refl _) rfl rfl rfl rfl
  | load _ _ => exact h.keep (.refl _) rfl rfl rfl rfl
  | reload => exact absurd List.mem_cons_self (hreload d.fresh)
  | enqueue => exact h.keep (.refl _) rfl rfl rfl rfl
  | start front back n ticket hc => exact h.keep (snapshots_go (y := some _) hc rfl rfl) rfl rfl rfl rfl
  | stop front back n ticket hc => exact h.keep (snapshots_go (y := none) hc rfl rfl) rfl rfl rfl rfl
  | find front back n ticket hc => exact h.keep (snapshots_go (y := some _) hc rfl rfl) rfl rfl rfl rfl
  | again front back n ticket f hc =>
    exact h.keep (snapshots_go (y := some _) hc rfl rfl) rfl rfl rfl rfl
  | settle front back x n ticket q a r hc hl =>
    have hloaded : d.index.loaded = false :=
      (hlone.waits _ (List.mem_filterMap.mpr ⟨x, by simp [hc], hl.load?⟩)).1
    have hfresh := hfresh.resolve_left (Bool.eq_false_iff.mp hloaded)
    exact h.settle hlone htried hc hl hhonest.1 (hfresh.reached n)
  | learn front back n ticket r hc hr =>
    refine h.keep (snapshots_go (y := none) hc rfl rfl) ?_ ?_ ?_ rfl <;> unfold leaveLoad <;> split <;> rfl
  | leave front back n ticket hc =>
    refine h.keep (snapshots_go (y := none) hc rfl rfl) ?_ ?_ ?_ rfl <;> unfold leaveLoad <;> split <;> rfl
  | withdraw front back n ticket hc => exact h.keep (snapshots_go (y := none) hc rfl rfl) rfl rfl rfl rfl
  | pass front back n ticket hc _ _ => exact h.keep (snapshots_go (y := none) hc rfl rfl) rfl rfl rfl rfl
  | take front back n ticket hc hhead hdirty => exact h.take hqueued hc hhead hdirty _
  | lack front back n ticket snapshot dir hc =>
    exact h.keep (snapshots_go (y := some _) hc rfl rfl) rfl rfl rfl rfl
  | write front back x n ticket snapshot q a hc hp =>
    refine h.keep (snapshots_go (y := some _) hc rfl hp.snapshot?.symm) rfl rfl rfl ?_
    cases hp <;> rfl
  | written front back n ticket snapshot hc => exact h.written hqueued hc _
  | fail front back x n ticket snapshot q f hc hs =>
    obtain ⟨e, rfl⟩ := hown n q f (by simp)
    exact of_dirty (h.loaded_of_snapshot hc hs.snapshot?) rfl

end Picture.Kept

/-- A load lasts until a reload. -/
lemma Move.loaded (hm : Move path d d') (hreload : ∀ n, .begun n .reload ∉ d'.history)
    (hl : d.index.loaded = true) : d'.index.loaded = true := by
  cases hm with
  | edit e =>
    rw [rewritten_apply e]
    exact hl
  | reload => exact absurd List.mem_cons_self (hreload d.fresh)
  | settle front back x n ticket q a r hc hx =>
    cases r with
    | ok p => rfl
    | error f => exact hl
  | learn front back n ticket r hc hr =>
    unfold leaveLoad
    split <;> exact hl
  | leave front back n ticket hc =>
    unfold leaveLoad
    split <;> exact hl
  | fail front back x n ticket snapshot q f hc hs => cases f <;> exact hl
  | _ => exact hl

/-- Nobody has taken a snapshot if nobody saves. -/
lemma Picture.Queued.snapshots_eq_nil (h : d.Queued) (hnobody : d.index.savers = []) :
    d.snapshots = [] := by
  refine List.filterMap_eq_nil_iff.mpr fun x hx => Option.eq_none_iff_forall_ne_some.mpr fun w hw => ?_
  have hhead := h.head x hx w hw
  rw [hnobody] at hhead
  cases hhead

/-- Nobody else writes the file of the index, the workspace fails only with its own faults, and nobody
reloads. -/
structure Undisturbed (path : String) (file : Option String) (h : List Happening) : Prop where
  honest : Honest path file h
  own : OwnFaults h
  lasting : ∀ n, .begun n .reload ∉ h

lemma Undisturbed.of_append {news h : List Happening} (hh : Undisturbed path file (news ++ h)) :
    Undisturbed path file h where
  honest := hh.honest.of_append
  own := hh.own.of_append
  lasting n hm := hh.lasting n (List.mem_append_right _ hm)

/-- One load at a time is under way, and the file is right. -/
structure Picture.Guarded (path : String) (file : Option String) (d : Picture) : Prop where
  tried : d.Tried
  lone : d.Lone
  kept : d.Kept path file

theorem Picture.Guarded.move (h : d.Guarded path file) (ht : d.Tidy) (hm : Move path d d')
    (hfresh : d.index.loaded = true ∨ Fresh path d'.history) (hu : Undisturbed path file d'.history) :
    d'.Guarded path file where
  tried := h.tried.move hm
  lone := h.lone.move ht.sound.ticketed hm hu.lasting
  kept := h.kept.move h.lone ht.queued h.tried hm hu.lasting hfresh hu.honest hu.own

lemma Picture.guarded_start (path : String) (file : Option String) :
    Picture.Guarded path file ⟨[], { path := path }, [], 0⟩ where
  tried _ _ hx := absurd hx List.not_mem_nil
  lone := ⟨Nat.zero_le _, fun _ hl => absurd hl List.not_mem_nil⟩
  kept := ⟨fun _ => ⟨rfl, rfl, rfl⟩, fun hl => absurd hl nofun, fun _ _ hw => absurd hw List.not_mem_nil⟩

/-- Until the index has been loaded nothing is changed, and so the file is right. -/
lemma exists_guarded {s : Service} (hs : s.index = { path := path }) (h : Reachable Demand.work s c)
    (hfresh : Fresh path c.history) (hu : Undisturbed path file c.history) :
    ∃ d : Picture, d.Of path c ∧ d.Tidy ∧ d.Guarded path file := by
  let P (d : Picture) := d.Tidy ∧
    (Undisturbed path file d.history → Fresh path d.history → d.Guarded path file)
  have hmove : ∀ d d', P d → Move path d d' → P d' := by
    rintro d d' ⟨htidy, hguarded⟩ hm
    refine ⟨htidy.move hm, fun hu hf => ?_⟩
    obtain ⟨news, hnews⟩ := hm.exists_news
    exact (hguarded (hnews ▸ hu).of_append (hnews ▸ hf).of_append).move htidy hm (Or.inr hf) hu
  obtain ⟨d, hd, htidy, hguarded⟩ := exists_picture (P := P) (by rw [hs])
    (by rw [hs]; exact ⟨Picture.tidy_start path, fun _ _ => Picture.guarded_start path file⟩) hmove h
  exact ⟨d, hd, htidy, hguarded (hd.history ▸ hu) (hd.history ▸ hfresh)⟩

/-- Once the index has been loaded, the file stays right. -/
lemma exists_guarded_of_steps {c₀ : Clerks} {d₀ : Picture} (hd₀ : d₀.Of path c₀) (ht : d₀.Tidy)
    (hg : d₀.Guarded path file) (hl : d₀.index.loaded = true)
    (h : Relation.ReflTransGen (Step Demand.work) c₀ c) (hu : Undisturbed path file c.history) :
    ∃ d : Picture, d.Of path c ∧ d.Tidy ∧ d.Guarded path file ∧ d.index.loaded = true := by
  let P (d : Picture) := d.Tidy ∧
    (Undisturbed path file d.history → d.Guarded path file ∧ d.index.loaded = true)
  have hmove : ∀ d d', P d → Move path d d' → P d' := by
    rintro d d' ⟨htidy, hguarded⟩ hm
    refine ⟨htidy.move hm, fun hu => ?_⟩
    obtain ⟨news, hnews⟩ := hm.exists_news
    obtain ⟨hg, hl⟩ := hguarded (hnews ▸ hu).of_append
    exact ⟨hg.move htidy hm (Or.inl hl) hu, hm.loaded hu.lasting hl⟩
  obtain ⟨d, hd, htidy, hguarded⟩ :=
    exists_picture_of_steps (P := P) hd₀ ⟨ht, fun _ => ⟨hg, hl⟩⟩ hmove h
  exact ⟨d, hd, htidy, hguarded (hd.history ▸ hu)⟩

lemma exists_history_of_steps {c₀ : Clerks} {d₀ : Picture} (hd₀ : d₀.Of path c₀)
    (h : Relation.ReflTransGen (Step Demand.work) c₀ c) : ∃ news, c.history = news ++ c₀.history := by
  obtain ⟨d, hd, news, hnews⟩ := exists_picture_of_steps
    (P := fun d => ∃ news, d.history = news ++ c₀.history) hd₀ ⟨[], hd₀.history.symm⟩
    (fun d d' hd hm => by
      obtain ⟨news, hnews⟩ := hd
      obtain ⟨more, hmore⟩ := hm.exists_news
      exact ⟨more ++ news, by rw [hmore, hnews, List.append_assoc]⟩) h
  exact ⟨news, hd.history.trans hnews⟩

/-- Once an index has been loaded, while nobody else writes its file, and whatever is changed and saved: if
it is clean and nobody saves, the file holds its records.  Snapshots are written one at a time.  The records
are those that come out when all that has happened is done again; and each snapshot that was written is the
document of all of them at one instant after the save began, and of no instant before something else was
written. -/
theorem clean_persisted {s : Service} {c₀ : Clerks} (hs : s.index = { path := path })
    (h₀ : Reachable Demand.work s c₀) (hfresh : Fresh path c₀.history)
    (hloaded : c₀.state.index.loaded = true) (h : Relation.ReflTransGen (Step Demand.work) c₀ c)
    (hu : Undisturbed path file c.history) :
    (c.state.index.savers = [] → c.state.index.dirty = false →
      (persisted (fileAfter path file c.history)).Same c.state.index.data) ∧
    c.paused.countP (fun x => isWriting x.rest) ≤ 1 ∧
    c.state.index.data = replay c.history ∧
    ∀ after n p text before, c.history = after ++ .answered n (.write p text) (.ok ()) :: before →
      ∃ since taken, Instant n text before since taken := by
  obtain ⟨d₁, hd₁, -⟩ := exists_tidy hs h₀
  obtain ⟨news, hnews⟩ := exists_history_of_steps hd₁ h
  obtain ⟨d₀, hd₀, htidy₀, hguarded₀⟩ := exists_guarded hs h₀ hfresh (hnews ▸ hu).of_append
  obtain ⟨d, hd, htidy, hguarded, hl⟩ :=
    exists_guarded_of_steps hd₀ htidy₀ hguarded₀ (hd₀.index ▸ hloaded) h hu
  refine ⟨fun hnobody hclean => ?_, htidy.queued.countP_isWriting hd, ?_, ?_⟩
  · rw [hd.index] at hnobody hclean ⊢
    rw [hd.history]
    exact hguarded.kept.stored hl hclean (htidy.queued.snapshots_eq_nil hnobody)
  · rw [hd.index, hd.history]
    exact htidy.sound.replayed
  · rw [hd.history]
    exact htidy.whole.written

/-! ## A file that cannot be read -/

/-- The picture after a load has found no file. -/
def begun : Picture where
  clerks := []
  index := {
    path := "i", loaded := true, loading? := some 0, loads := [(0, .ok ())], loadsBegun := 1 }
  history := [.returned 0 .done, .answered 1 (.probe "i") (.ok false), .put 1 (.probe "i"),
    .begun 0 .load]
  fresh := 2

/-- The picture after an import has been recorded and saved since. -/
def saved : Picture where
  clerks := []
  index := {
    path := "i", data := note, loaded := true, loading? := some 0, loads := [(0, .ok ())]
    loadsBegun := 1, savesBegun := 1 }
  history := [.returned 3 (.saved true), .answered 3 (.write "i" note.render) (.ok ()),
    .put 3 (.write "i" note.render), .begun 3 .save, .returned 2 .done,
    .begun 2 (.edit (.record "a.sol" "x" "y"))] ++ begun.history
  fresh := 4

lemma moves_begun : Relation.ReflTransGen (Move "i") ⟨[], { path := "i" }, [], 0⟩ begun := by
  have h₁ := Relation.ReflTransGen.refl (r := Move "i") (a := ⟨[], { path := "i" }, [], 0⟩)
  have h₂ := h₁.tail (.load rfl rfl)
  have h₃ := h₂.tail (.start [.awaiter 0 0] [] 1 0 rfl)
  have h₄ := h₃.tail (.settle [] [.awaiter 0 0] _ 1 0 _ _ _ rfl .absent)
  exact h₄.tail (.learn [] [] 0 0 (.ok ()) rfl rfl)

lemma moves_saved : Relation.ReflTransGen (Move "i") begun saved := by
  have h₁ := Relation.ReflTransGen.refl (r := Move "i") (a := begun)
  have h₂ := h₁.tail (.edit (.record "a.sol" "x" "y"))
  have h₃ := h₂.tail .enqueue
  have h₄ := h₃.tail (.take [] [] 3 0 rfl rfl rfl)
  exact h₄.tail (.written [] [] 3 0 note.render rfl)

/-- The picture after a load could not read a file. -/
def unreached (f : WorkspaceFault) : Picture where
  clerks := []
  index := {
    path := "i", loaded := true, loading? := some 0, loads := [(0, .ok ())], loadsBegun := 1 }
  history := [.returned 0 .done, .answered 1 (.read "i") (.error (.workspace f)), .put 1 (.read "i"),
    .answered 1 (.read "i") (.error (.workspace f)), .put 1 (.read "i"),
    .answered 1 (.probe "i") (.ok true), .put 1 (.probe "i"), .begun 0 .load]
  fresh := 2

lemma moves_unreached (f : WorkspaceFault) :
    Relation.ReflTransGen (Move "i") ⟨[], { path := "i" }, [], 0⟩ (unreached f) := by
  have h₁ := Relation.ReflTransGen.refl (r := Move "i") (a := ⟨[], { path := "i" }, [], 0⟩)
  have h₂ := h₁.tail (.load rfl rfl)
  have h₃ := h₂.tail (.start [.awaiter 0 0] [] 1 0 rfl)
  have h₄ := h₃.tail (.find [] [.awaiter 0 0] 1 0 rfl)
  have h₅ := h₄.tail (.again [] [.awaiter 0 0] 1 0 f rfl)
  have h₆ := h₅.tail (.settle [] [.awaiter 0 0] _ 1 0 _ _ _ rfl (.unread true (.workspace f) fun _ _ => rfl))
  exact h₆.tail (.learn [] [] 0 0 (.ok ()) rfl rfl)

lemma fresh_begun : Fresh "i" begun.history where
  unedited := by simp [begun]
  reached n := by simp [begun, GaveUp, failedRead]

lemma undisturbed_saved : Undisturbed "i" none saved.history where
  honest := by
    simp only [saved, begun, List.cons_append, List.nil_append, Honest, Fits, fileAfter, and_true, true_and]
    exact fun _ => rfl
  own n q f hm := by
    simp only [saved, begun, List.cons_append, List.nil_append, List.mem_cons, List.not_mem_nil,
      reduceCtorEq, or_false, false_or] at hm
    rcases hm with hm | hm <;> cases hm
  lasting := by simp [saved, begun]

/-- After an import has been recorded and saved the file holds it. -/
theorem clean_persisted_saved : ∃ c : Clerks, Reachable Demand.work newService c ∧
    c.state.index.data = note ∧ (persisted (fileAfter "i" none c.history)).Same note := by
  obtain ⟨c₀, hc₀, hd₀⟩ := exists_reachable (s := newService) rfl moves_begun
  obtain ⟨c, hc, hd⟩ := exists_steps hd₀ moves_saved
  have hloaded : c₀.state.index.loaded = true := by rw [hd₀.index, begun]
  have hstored := (clean_persisted rfl hc₀ (hd₀.history ▸ fresh_begun) hloaded hc
    (hd.history ▸ undisturbed_saved)).1 (by rw [hd.index, saved]) (by rw [hd.index, saved])
  rw [hd.index] at hstored
  exact ⟨c, hc₀.trans hc, by rw [hd.index, saved], hstored⟩

lemma undisturbed_unreached (f : WorkspaceFault) (d : IndexData) :
    Undisturbed "i" (some d.render) (unreached f).history where
  honest := by
    simp only [unreached, Honest, Fits, fileAfter, and_true, true_and]
    exact fun _ => rfl
  own n q g hm := by
    simp only [unreached, List.mem_cons, List.not_mem_nil, reduceCtorEq, or_false, false_or] at hm
    rcases hm with hm | hm | hm <;> cases hm <;> exact ⟨f, rfl⟩
  lasting := by simp [unreached]

/-- If a load has given the file up, the index is clean, but the file holds other records. -/
theorem not_clean_persisted : ¬ ∀ {path : String} {file : Option String} {s : Service} {c₀ c : Clerks},
    s.index = { path := path } → Reachable Demand.work s c₀ → (∀ n e, .begun n (.edit e) ∉ c₀.history) →
    c₀.state.index.loaded = true → Relation.ReflTransGen (Step Demand.work) c₀ c →
    Undisturbed path file c.history → c.state.index.savers = [] → c.state.index.dirty = false →
    (persisted (fileAfter path file c.history)).Same c.state.index.data := by
  intro h
  obtain ⟨c, hc, hd⟩ := exists_reachable (s := newService) rfl (moves_unreached ⟨"no answer", "i"⟩)
  have hstored := h rfl hc (by simp [hd.history, unreached]) (by rw [hd.index, unreached]) .refl
    (hd.history ▸ undisturbed_unreached _ note) (by rw [hd.index, unreached]) (by rw [hd.index, unreached])
  have hfile : persisted (fileAfter "i" (some note.render) c.history) = note.ordered := by
    rw [hd.history]
    exact decode_render note
  have hsource := hstored "a.sol"
  rw [hfile, hd.index] at hsource
  have hsome : (note.ordered.get? "a.sol").isSome = true := by decide +kernel
  have hnone : (unreached ⟨"no answer", "i"⟩).index.data.get? "a.sol" = none := rfl
  rw [hnone] at hsource
  cases hrecords : note.ordered.get? "a.sol" with
  | none => simp [hrecords] at hsome
  | some t =>
    rw [hrecords] at hsource
    cases hsource

end SourceBundle.Index
