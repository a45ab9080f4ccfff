/-
# Snapshots

Those who save stand in a queue, and only its first one has taken a snapshot that is not written yet.  So
snapshots are written one at a time.  Each of them is the document of all the records at one instant since
the save began; and what others have written was written before this instant, so that no snapshot replaces
a newer one.
-/
import SourceBundle.Proofs.Index.Replay

namespace SourceBundle.Index

open Crowd

/-! ## The queue -/

namespace Clerk

/-- The ticket of one who saves or wants to. -/
def save? : Clerk → Option Nat
  | queuer _ ticket | searcher _ ticket _ _ | maker _ ticket _ _ | writer _ ticket _ => some ticket
  | _ => none

/-- The ticket and the snapshot of one who has taken one. -/
def snapshot? : Clerk → Option (Nat × String)
  | searcher _ ticket snapshot _ | maker _ ticket snapshot _ | writer _ ticket snapshot =>
    some (ticket, snapshot)
  | _ => none

lemma save?_of_snapshot? {x : Clerk} {w : Nat × String} (h : x.snapshot? = some w) :
    x.save? = some w.1 := by
  cases x <;> cases h <;> rfl

@[simp] lemma save?_saver (path : String) (n ticket : Nat) (snapshot : String) :
    (saver path n ticket snapshot).save? = some ticket := by
  unfold saver
  split <;> rfl

@[simp] lemma snapshot?_saver (path : String) (n ticket : Nat) (snapshot : String) :
    (saver path n ticket snapshot).snapshot? = some (ticket, snapshot) := by
  unfold saver
  split <;> rfl

@[simp] lemma number_saver (path : String) (n ticket : Nat) (snapshot : String) :
    (saver path n ticket snapshot).number = n := by
  unfold saver
  split <;> rfl

variable {path snapshot : String} {n ticket : Nat} {x : Clerk} {q : Question} {a : q.Answer}

lemma Loads.save? {r : Except Fault IndexData} (h : x.Loads path n ticket q a r) : x.save? = none := by
  cases h <;> rfl

lemma Prepared.snapshot? (h : x.Prepared n ticket snapshot q a) :
    x.snapshot? = some (ticket, snapshot) := by
  cases h <;> rfl

lemma Prepared.number (h : x.Prepared n ticket snapshot q a) : x.number = n := by
  cases h <;> rfl

lemma Saves.snapshot? (h : x.Saves path n ticket snapshot q) :
    x.snapshot? = some (ticket, snapshot) := by
  cases h <;> rfl

end Clerk

/-- The tickets of those who save or want to. -/
def Picture.saves (d : Picture) : List Nat := d.clerks.filterMap Clerk.save?

/-- Those who save stand in a queue, and who has taken a snapshot is its first. -/
structure Picture.Queued (d : Picture) : Prop where
  tickets : d.saves.Perm d.index.savers
  distinct : d.index.savers.Nodup
  begun : ∀ t ∈ d.index.savers, t < d.index.savesBegun
  head : ∀ x ∈ d.clerks, ∀ w, x.snapshot? = some w → d.index.savers.head? = some w.1

variable {path : String} {c c' : Clerks} {d d' : Picture} {front back : List Clerk} {x : Clerk}

lemma filterMap_perm {β : Type} (f : Clerk → Option β) {clerks : List Clerk}
    (hc : clerks = front ++ x :: back) :
    (clerks.filterMap f).Perm ((f x).toList ++ (front ++ back).filterMap f) := by
  rw [hc]
  refine (List.perm_middle.filterMap f).trans ?_
  cases h : f x <;> simp [h]

namespace Picture.Queued

/-- Who comes and does not want to save changes nothing about the queue. -/
lemma enter (h : d.Queued) (xs : List Clerk) (hc : d'.clerks = xs ++ d.clerks)
    (hxs : ∀ x ∈ xs, x.save? = none) (hsavers : d'.index.savers = d.index.savers)
    (hbegun : d'.index.savesBegun = d.index.savesBegun) : d'.Queued where
  tickets := by
    have hnil : xs.filterMap Clerk.save? = [] := List.filterMap_eq_nil_iff.mpr hxs
    rw [Picture.saves, hc, List.filterMap_append, hnil, hsavers]
    exact h.tickets
  distinct := hsavers ▸ h.distinct
  begun := by
    rw [hsavers, hbegun]
    exact h.begun
  head x hx w hw := by
    rw [hc] at hx
    rw [hsavers]
    rcases List.mem_append.mp hx with hx | hx
    · have hsome := Clerk.save?_of_snapshot? hw
      rw [hxs x hx] at hsome
      cases hsome
    · exact h.head x hx w hw

/-- One who goes on and keeps its place changes nothing about the queue. -/
lemma go (h : d.Queued) {y : Option Clerk} (hc : d.clerks = front ++ x :: back)
    (hc' : d'.clerks = y.toList ++ (front ++ back)) (hsave : y.bind Clerk.save? = x.save?)
    (hhead : ∀ w, y.bind Clerk.snapshot? = some w → d.index.savers.head? = some w.1)
    (hsavers : d'.index.savers = d.index.savers) (hbegun : d'.index.savesBegun = d.index.savesBegun) :
    d'.Queued where
  tickets := by
    have hy : y.toList.filterMap Clerk.save? = x.save?.toList := by
      rw [← hsave]
      cases y with
      | none => rfl
      | some z => cases hz : z.save? <;> simp [hz]
    rw [Picture.saves, hc', List.filterMap_append, hy, hsavers]
    exact (filterMap_perm Clerk.save? hc).symm.trans h.tickets
  distinct := hsavers ▸ h.distinct
  begun := by
    rw [hsavers, hbegun]
    exact h.begun
  head z hz w hw := by
    rw [hc'] at hz
    rw [hsavers]
    rcases List.mem_append.mp hz with hz | hz
    · rw [Option.mem_toList.mp hz] at hhead
      exact hhead w hw
    · exact h.head z (mem_of_rest hc hz) w hw

/-- The tickets of the others, when one is left out. -/
lemma others (h : d.Queued) (hc : d.clerks = front ++ x :: back) {ticket : Nat}
    (hx : x.save? = some ticket) :
    (ticket :: (front ++ back).filterMap Clerk.save?).Perm d.index.savers := by
  have hperm := (filterMap_perm Clerk.save? hc).symm.trans h.tickets
  rwa [hx] at hperm

/-- When the first of the queue is left out, nobody has taken a snapshot. -/
lemma alone (h : d.Queued) (hc : d.clerks = front ++ x :: back) {ticket : Nat}
    (hx : x.save? = some ticket) (hhead : d.index.savers.head? = some ticket) :
    ∀ y ∈ front ++ back, y.snapshot? = none := by
  intro y hy
  refine Option.eq_none_iff_forall_ne_some.mpr fun w hw => ?_
  have hw₁ : w.1 = ticket := by
    have hhead' := h.head y (mem_of_rest hc hy) w hw
    exact Option.some_injective _ (hhead'.symm.trans hhead)
  have hmem : ticket ∈ (front ++ back).filterMap Clerk.save? :=
    List.mem_filterMap.mpr ⟨y, hy, hw₁ ▸ Clerk.save?_of_snapshot? hw⟩
  exact (List.nodup_cons.mp ((h.others hc hx).nodup_iff.mpr h.distinct)).1 hmem

/-- When one who has taken a snapshot is left out, nobody else has. -/
lemma others_snapshot? (h : d.Queued) (hc : d.clerks = front ++ x :: back) {w : Nat × String}
    (hx : x.snapshot? = some w) : ∀ y ∈ front ++ back, y.snapshot? = none :=
  h.alone hc (Clerk.save?_of_snapshot? hx) (h.head x (by simp [hc]) w hx)

/-- One leaves the queue. -/
lemma leave (h : d.Queued) {ticket : Nat} (hc : d.clerks = front ++ x :: back)
    (hx : x.save? = some ticket) (hc' : d'.clerks = front ++ back)
    (hsavers : d'.index.savers = d.index.savers.filter (· != ticket))
    (hbegun : d'.index.savesBegun = d.index.savesBegun) : d'.Queued := by
  have hothers := h.others hc hx
  have hnot := (List.nodup_cons.mp (hothers.nodup_iff.mpr h.distinct)).1
  have hfilter : (ticket :: (front ++ back).filterMap Clerk.save?).filter (· != ticket) =
      (front ++ back).filterMap Clerk.save? := by
    rw [List.filter_cons_of_neg (by simp), List.filter_eq_self]
    exact fun t ht => bne_iff_ne.mpr (ne_of_mem_of_not_mem ht hnot)
  refine ⟨?_, ?_, fun t ht => ?_, fun y hy w hw => ?_⟩
  · have hperm := hothers.filter (· != ticket)
    rw [hfilter] at hperm
    rw [Picture.saves, hc', hsavers]
    exact hperm
  · exact hsavers ▸ h.distinct.filter _
  · rw [hsavers] at ht
    exact hbegun ▸ h.begun t (List.mem_of_mem_filter ht)
  · rw [hc'] at hy
    have hne : w.1 ≠ ticket := ne_of_mem_of_not_mem
      (List.mem_filterMap.mpr ⟨y, hy, Clerk.save?_of_snapshot? hw⟩) hnot
    obtain ⟨rest, hrest⟩ := List.head?_eq_some_iff.mp (h.head y (mem_of_rest hc hy) w hw)
    rw [hsavers, hrest, List.filter_cons_of_pos (by simpa using hne)]
    rfl

/-- One joins the queue. -/
lemma enqueue (h : d.Queued) (n : Nat) (hc : d'.clerks = .queuer n d.index.savesBegun :: d.clerks)
    (hindex : d'.index = d.index.enqueue.2) : d'.Queued := by
  have hsavers : d'.index.savers = d.index.savers ++ [d.index.savesBegun] := by rw [hindex]; rfl
  have hbegun : d'.index.savesBegun = d.index.savesBegun + 1 := by rw [hindex]; rfl
  refine ⟨?_, ?_, fun t ht => ?_, fun y hy w hw => ?_⟩
  · rw [Picture.saves, hc, hsavers]
    exact (h.tickets.cons _).trans (List.perm_append_singleton _ _).symm
  · rw [hsavers, List.nodup_append]
    refine ⟨h.distinct, List.nodup_singleton _, fun t ht u hu => ?_⟩
    rw [List.mem_singleton.mp hu]
    exact Nat.ne_of_lt (h.begun t ht)
  · rw [hsavers] at ht
    rw [hbegun]
    rcases List.mem_append.mp ht with ht | ht
    · exact Nat.lt_succ_of_lt (h.begun t ht)
    · exact List.mem_singleton.mp ht ▸ Nat.lt_succ_self _
  · rw [hc] at hy
    rcases List.mem_cons.mp hy with rfl | hy
    · cases hw
    · rw [hsavers, List.head?_append, h.head y hy w hw]
      rfl

theorem move (h : d.Queued) (hm : Move path d d') : d'.Queued := by
  cases hm with
  | edit e => exact h.enter [] rfl (by simp) (by rw [rewritten_apply e]) (by rw [rewritten_apply e])
  | known _ => exact h.enter [] rfl (by simp) rfl rfl
  | join ticket _ _ => exact h.enter [_] rfl (by simp [Clerk.save?]) rfl rfl
  | load _ _ => exact h.enter [_, _] rfl (by simp [Clerk.save?]) rfl rfl
  | reload => exact h.enter [_, _] rfl (by simp [Clerk.save?]) rfl rfl
  | enqueue => exact h.enqueue d.fresh rfl rfl
  | start front back n ticket hc => exact h.go (y := some _) hc rfl rfl (by simp [Clerk.snapshot?]) rfl rfl
  | stop front back n ticket hc => exact h.go (y := none) hc rfl rfl (by simp) rfl rfl
  | find front back n ticket hc => exact h.go (y := some _) hc rfl rfl (by simp [Clerk.snapshot?]) rfl rfl
  | again front back n ticket f hc =>
    exact h.go (y := some _) hc rfl rfl (by simp [Clerk.snapshot?]) rfl rfl
  | settle front back x n ticket q a r hc hl =>
    refine h.go (y := none) hc rfl hl.save?.symm (by simp) ?_ ?_ <;> cases r <;> rfl
  | learn front back n ticket r hc hr =>
    refine h.go (y := none) hc rfl rfl (by simp) ?_ ?_ <;> unfold leaveLoad <;> split <;> rfl
  | leave front back n ticket hc =>
    refine h.go (y := none) hc rfl rfl (by simp) ?_ ?_ <;> unfold leaveLoad <;> split <;> rfl
  | withdraw front back n ticket hc => exact h.leave hc rfl rfl rfl rfl
  | pass front back n ticket hc _ _ => exact h.leave hc rfl rfl rfl rfl
  | take front back n ticket hc hhead _ =>
    refine h.go (y := some _) hc rfl (Clerk.save?_saver ..) (fun w hw => ?_) rfl rfl
    rw [Option.bind_some, Clerk.snapshot?_saver] at hw
    exact Option.some_injective _ hw ▸ hhead
  | lack front back n ticket snapshot dir hc =>
    refine h.go (y := some _) hc rfl rfl (fun w hw => ?_) rfl rfl
    exact h.head (.searcher n ticket snapshot dir) (by simp [hc]) w hw
  | write front back x n ticket snapshot q a hc hp =>
    refine h.go (y := some _) hc rfl (Clerk.save?_of_snapshot? hp.snapshot?).symm (fun w hw => ?_) rfl rfl
    exact h.head x (by simp [hc]) w (hp.snapshot?.trans hw)
  | written front back n ticket snapshot hc => exact h.leave hc rfl rfl rfl rfl
  | fail front back x n ticket snapshot q f hc hs =>
    refine h.leave hc (Clerk.save?_of_snapshot? hs.snapshot?) rfl ?_ ?_ <;> cases f <;> rfl

lemma start (i : Index) (hi : i.savers = []) : Picture.Queued ⟨[], i, [], 0⟩ where
  tickets := hi ▸ .nil
  distinct := hi ▸ List.nodup_nil
  begun _ ht := absurd (hi ▸ ht) List.not_mem_nil
  head _ hx := absurd hx List.not_mem_nil

end Picture.Queued

/-- Whether a routine is writing a file. -/
def isWriting {α : Type} : Work α → Bool
  | .ask (.write _ _) _ => true
  | _ => false

lemma Clerk.snapshot?_of_isWriting {x : Clerk} (h : isWriting (x.paused path).rest = true) :
    x.snapshot?.isSome = true := by
  cases x with
  | reader n ticket again => cases again <;> cases h
  | searcher n ticket snapshot dir => rfl
  | maker n ticket snapshot dir => rfl
  | writer n ticket snapshot => rfl
  | _ => cases h

/-- Snapshots are written one at a time. -/
theorem Picture.Queued.countP_isWriting (h : d.Queued) (hd : d.Of path c) :
    c.paused.countP (fun x => isWriting x.rest) ≤ 1 := by
  have hsnapshots : d.clerks.countP (fun x => x.snapshot?.isSome) ≤ 1 := by
    by_cases hsome : ∃ x ∈ d.clerks, x.snapshot?.isSome = true
    · obtain ⟨x, hx, hw⟩ := hsome
      obtain ⟨front, back, hc⟩ := List.append_of_mem hx
      obtain ⟨w, hw'⟩ := Option.isSome_iff_exists.mp hw
      have hrest : (front ++ back).countP (fun x => x.snapshot?.isSome) = 0 :=
        List.countP_eq_zero.mpr fun y hy => by simp [h.others_snapshot? hc hw' y hy]
      rw [List.countP_append] at hrest
      rw [hc, List.countP_append, List.countP_cons, if_pos hw]
      omega
    · have hnone : d.clerks.countP (fun x => x.snapshot?.isSome) = 0 :=
        List.countP_eq_zero.mpr fun x hx hw => hsome ⟨x, hx, hw⟩
      omega
  rw [hd.paused, List.countP_map]
  refine le_trans (List.countP_mono_left fun x _ hx => ?_) hsnapshots
  exact Clerk.snapshot?_of_isWriting hx

/-! ## The instants of snapshots -/

/-- By this event a text has been written. -/
def Wrote (e : Happening) : Prop := ∃ n path text, e = .answered n (.write path text) (.ok ())

/-- A text is the document of all the records at an instant after a save has begun, and since then nothing
has been written. -/
structure Instant (n : Nat) (text : String) (h since taken : List Happening) : Prop where
  split : h = since ++ taken
  text : text = (replay taken).render
  begun : .begun n .save ∈ taken
  last : ∀ e ∈ since, ¬ Wrote e

/-- What is written or is about to be written was true at an instant after the save has begun, and nothing
has been written since. -/
structure Picture.Whole (d : Picture) : Prop where
  queues : ∀ n ticket, .queuer n ticket ∈ d.clerks → .begun n .save ∈ d.history
  taken : ∀ x ∈ d.clerks, ∀ w, x.snapshot? = some w →
    ∃ since taken, Instant x.number w.2 d.history since taken
  written : ∀ after n p text before,
    d.history = after ++ .answered n (.write p text) (.ok ()) :: before →
    ∃ since taken, Instant n text before since taken

lemma Instant.more {n : Nat} {text : String} {h since taken news : List Happening}
    (hi : Instant n text h since taken) (hnews : ∀ e ∈ news, ¬ Wrote e) :
    Instant n text (news ++ h) (news ++ since) taken where
  split := by rw [hi.split, List.append_assoc]
  text := hi.text
  begun := hi.begun
  last := List.forall_mem_append.mpr ⟨hnews, hi.last⟩

/-- By a move nothing is written, or a snapshot is. -/
lemma Move.news (hm : Move path d d') :
    (∃ news, d'.history = news ++ d.history ∧ ∀ e ∈ news, ¬ Wrote e) ∨
      ∃ front back n ticket snapshot, d.clerks = front ++ .writer n ticket snapshot :: back ∧
        d'.clerks = front ++ back ∧ d'.history = .returned n (.saved true) ::
          .answered n (.write path snapshot) (.ok ()) :: d.history := by
  cases hm with
  | written front back n ticket snapshot hc => exact Or.inr ⟨front, back, n, ticket, snapshot, hc, rfl, rfl⟩
  | edit e => exact Or.inl ⟨[_, _], rfl, by simp [Wrote]⟩
  | known _ => exact Or.inl ⟨[_, _], rfl, by simp [Wrote]⟩
  | stop front back n ticket hc => exact Or.inl ⟨[], rfl, by simp⟩
  | find front back n ticket hc =>
    refine Or.inl ⟨[_, _], rfl, ?_⟩
    simp [Wrote]
  | again front back n ticket f hc =>
    refine Or.inl ⟨[_, _], rfl, ?_⟩
    simp [Wrote]
  | settle front back x n ticket q a r hc hl =>
    refine Or.inl ⟨[_], rfl, ?_⟩
    cases hl <;> simp [Wrote]
  | lack front back n ticket snapshot dir hc => exact Or.inl ⟨[_, _], rfl, by simp [Wrote]⟩
  | write front back x n ticket snapshot q a hc hp =>
    refine Or.inl ⟨[_, _], rfl, ?_⟩
    cases hp <;> simp [Wrote]
  | fail front back x n ticket snapshot q f hc hs =>
    refine Or.inl ⟨[_, _], rfl, ?_⟩
    cases hs <;> simp [Wrote]
  | _ => exact Or.inl ⟨[_], rfl, by simp [Wrote]⟩

/-- What has happened stays known. -/
lemma Move.exists_news (hm : Move path d d') : ∃ news, d'.history = news ++ d.history := by
  rcases hm.shape with ⟨xs, news, hs⟩ | ⟨front, x, back, y, news, hs⟩
  · exact ⟨news, hs.history⟩
  · exact ⟨news, hs.history⟩

/-- Those that pause after a move and have not paused so before. -/
inductive Comes (path : String) (d d' : Picture) : Clerk → Prop
  | awaiter (ticket : Nat) : Comes path d d' (.awaiter d.fresh ticket)
  | starter : Comes path d d' (.starter (d.fresh + 1) d.index.loadsBegun)
  | queuer (n ticket : Nat) : .begun n .save ∈ d'.history → Comes path d d' (.queuer n ticket)
  | prober (n ticket : Nat) : Comes path d d' (.prober n ticket)
  | reader (n ticket : Nat) : Comes path d d' (.reader n ticket false)
  | again (n ticket : Nat) (f : Fault) :
    d'.history = .put n (.read path) :: .answered n (.read path) (.error f) :: d.history →
    Comes path d d' (.reader n ticket true)
  | saver (n ticket : Nat) (y : Clerk) : .queuer n ticket ∈ d.clerks →
    y = .saver path n ticket d.index.data.render → Comes path d d' y
  | maker (n ticket : Nat) (snapshot dir : String) : .searcher n ticket snapshot dir ∈ d.clerks →
    Comes path d d' (.maker n ticket snapshot dir)
  | writer (x : Clerk) (n ticket : Nat) (snapshot : String) : x ∈ d.clerks → x.number = n →
    x.snapshot? = some (ticket, snapshot) → Comes path d d' (.writer n ticket snapshot)

/-- Who pauses after a move has paused before, or comes to this pause. -/
theorem Move.mem_clerks (hm : Move path d d') {y : Clerk} (hy : y ∈ d'.clerks) :
    y ∈ d.clerks ∨ Comes path d d' y := by
  have hcome : ∀ {xs : List Clerk} {z : Clerk}, y ∈ z :: xs → Comes path d d' z →
      y ∈ xs ∨ Comes path d d' y := by
    intro xs z hy hz
    rcases List.mem_cons.mp hy with rfl | hy
    · exact Or.inr hz
    · exact Or.inl hy
  -- one who goes on is the only one that is not as before
  have hgo : ∀ {front back : List Clerk} {x z : Clerk}, d.clerks = front ++ x :: back →
      y ∈ z :: (front ++ back) → Comes path d d' z → y ∈ d.clerks ∨ Comes path d d' y :=
    fun hc hy hz => (hcome hy hz).imp_left (mem_of_rest hc)
  cases hm with
  | edit e => exact Or.inl hy
  | known _ => exact Or.inl hy
  | join ticket _ _ => exact hcome hy (.awaiter ticket)
  | load _ _ => exact (hcome hy (.awaiter _)).elim (fun hy => hcome hy .starter) Or.inr
  | reload => exact (hcome hy (.awaiter _)).elim (fun hy => hcome hy .starter) Or.inr
  | enqueue => exact hcome hy (.queuer _ _ List.mem_cons_self)
  | start front back n ticket hc => exact hgo hc hy (.prober n ticket)
  | find front back n ticket hc => exact hgo hc hy (.reader n ticket)
  | again front back n ticket f hc => exact hgo hc hy (.again n ticket (.workspace f) rfl)
  | take front back n ticket hc _ _ => exact hgo hc hy (.saver n ticket _ (by simp [hc]) rfl)
  | lack front back n ticket snapshot dir hc =>
    exact hgo hc hy (.maker n ticket snapshot dir (by simp [hc]))
  | write front back x n ticket snapshot q a hc hp =>
    exact hgo hc hy (.writer x n ticket snapshot (by simp [hc]) hp.number hp.snapshot?)
  | _ => exact Or.inl (mem_of_rest ‹_› hy)

/-- Who has a snapshot now had it before, or takes it now. -/
lemma Move.snapshot? (hm : Move path d d') {y : Clerk} (hy : y ∈ d'.clerks) {w : Nat × String}
    (hw : y.snapshot? = some w) :
    (∃ x ∈ d.clerks, x.number = y.number ∧ x.snapshot? = some w) ∨
      ∃ ticket, .queuer y.number ticket ∈ d.clerks ∧ w.2 = d.index.data.render := by
  rcases hm.mem_clerks hy with hy | hcome
  · exact Or.inl ⟨y, hy, rfl, hw⟩
  · cases hcome with
    | saver n ticket y hx hy =>
      subst hy
      rw [Clerk.snapshot?_saver] at hw
      cases hw
      exact Or.inr ⟨ticket, (Clerk.number_saver ..).symm ▸ hx, rfl⟩
    | maker n ticket snapshot dir hx => exact Or.inl ⟨_, hx, rfl, hw⟩
    | writer x n ticket snapshot hx hnumber hx' => exact Or.inl ⟨x, hx, hnumber, hx'.trans hw⟩
    | _ => cases hw

/-- Who queues now has queued before, or joins now. -/
lemma Move.queuer (hm : Move path d d') {n ticket : Nat} (hx : .queuer n ticket ∈ d'.clerks) :
    .queuer n ticket ∈ d.clerks ∨ .begun n .save ∈ d'.history := by
  rcases hm.mem_clerks hx with hx | hcome
  · exact Or.inl hx
  · cases hcome with
    | queuer n ticket hb => exact Or.inr hb
    | saver m t y hx hy =>
      have hsome := congrArg Clerk.snapshot? hy
      rw [Clerk.snapshot?_saver] at hsome
      cases hsome

lemma mem_news_or_split {news h after before : List Happening} {e : Happening}
    (hh : news ++ h = after ++ e :: before) (he : e ∉ news) : ∃ mid, h = mid ++ e :: before := by
  rcases List.append_eq_append_iff.mp hh with ⟨mid, -, hmid⟩ | ⟨mid, hnews, hmid⟩
  · exact ⟨mid, hmid⟩
  · cases mid with
    | nil => exact ⟨[], hmid.symm⟩
    | cons e' mid =>
      obtain ⟨rfl, -⟩ := List.cons.inj hmid
      exact absurd (by simp [hnews]) he

theorem Picture.Whole.move (h : d.Whole) (hq : d.Queued) (hr : d.Replayed) (hm : Move path d d') :
    d'.Whole := by
  -- the snapshot of one who has it now was true before this move
  have htaken : ∀ y ∈ d'.clerks, ∀ w, y.snapshot? = some w →
      ∃ since taken, Instant y.number w.2 d.history since taken := by
    intro y hy w hw
    rcases hm.snapshot? hy hw with ⟨x, hx, hnumber, hx'⟩ | ⟨ticket, hx, hw₂⟩
    · exact hnumber ▸ h.taken x hx w hx'
    · exact ⟨[], d.history, rfl, by rw [hw₂, hr], h.queues _ _ hx, by simp⟩
  rcases hm.news with ⟨news, hnews, hsilent⟩ | ⟨front, back, n, ticket, snapshot, hc, hc', hhistory⟩
  · refine ⟨fun n ticket hx => ?_, fun y hy w hw => ?_, fun after n p text before hh => ?_⟩
    · rcases hm.queuer hx with hx | hb
      · rw [hnews]
        exact List.mem_append_right _ (h.queues n ticket hx)
      · exact hb
    · obtain ⟨since, taken, hi⟩ := htaken y hy w hw
      rw [hnews]
      exact ⟨_, _, hi.more hsilent⟩
    · rw [hnews] at hh
      obtain ⟨mid, hmid⟩ := mem_news_or_split hh fun he => hsilent _ he ⟨n, p, text, rfl⟩
      exact h.written mid n p text before hmid
  · have hx : Clerk.writer n ticket snapshot ∈ d.clerks := by simp [hc]
    refine ⟨fun m t hx => ?_, fun y hy w hw => ?_, fun after m p text before hh => ?_⟩
    · rw [hhistory]
      rw [hc'] at hx
      simpa using h.queues m t (mem_of_rest hc hx)
    · rw [hc'] at hy
      rw [hq.others_snapshot? hc rfl y hy] at hw
      cases hw
    · rw [hhistory, ← List.singleton_append] at hh
      obtain ⟨mid, hmid⟩ := mem_news_or_split hh (by simp)
      cases mid with
      | nil =>
        cases hmid
        exact h.taken _ hx (ticket, snapshot) rfl
      | cons e mid => exact h.written mid m p text before (List.cons.inj hmid).2

lemma Picture.whole_start (i : Index) : Picture.Whole ⟨[], i, [], 0⟩ where
  queues _ _ hx := absurd hx List.not_mem_nil
  taken _ hx := absurd hx List.not_mem_nil
  written after _ _ _ _ h := absurd h (by simp)

/-- What holds of every picture of users who save. -/
structure Picture.Tidy (d : Picture) : Prop where
  sound : d.Sound
  queued : d.Queued
  whole : d.Whole

theorem Picture.Tidy.move (h : d.Tidy) (hm : Move path d d') : d'.Tidy where
  sound := h.sound.move hm
  queued := h.queued.move hm
  whole := h.whole.move h.queued h.sound.replayed hm

lemma Picture.tidy_start (path : String) : Picture.Tidy ⟨[], { path := path }, [], 0⟩ where
  sound := Picture.sound_start path
  queued := Picture.Queued.start _ rfl
  whole := Picture.whole_start _

/-- In whatever order users come and take their turns, their picture is tidy. -/
theorem exists_tidy {s : Service} (hs : s.index = { path := path }) (h : Reachable Demand.work s c) :
    ∃ d : Picture, d.Of path c ∧ d.Tidy :=
  exists_picture (by rw [hs]) (by rw [hs]; exact Picture.tidy_start path) (fun _ _ hd hm => hd.move hm) h

end SourceBundle.Index
