/-
# What the records are made of

The records of the index are those that come out when all that has happened since the last reload is
done again on no records at all: the changes, and every load that has ended since then, whoever began it.
So a reload replaces all records if no load that was begun before it brings records after it; and if one
does, they stay.
-/
import SourceBundle.Proofs.Index.Clerks
import SourceBundle.Proofs.Index.Format

namespace SourceBundle.Index

open Crowd

/-! ## Doing again what has happened -/

/-- The records that a content holds; a content that is rejected holds none. -/
def decode (content : String) : IndexData :=
  match IndexData.parse content with
  | .ok d => d
  | .error _ => ∅

/-- A change done on some records. -/
def Edit.revise (e : Edit) (d : IndexData) : IndexData := (e.apply { path := "", data := d }).data

/-- What an event does to the records: changes and reloads do what they say, and a load that has read a
content enters its records below those that are there. -/
def effect : Happening → IndexData → IndexData
  | .begun _ (.edit e) => e.revise
  | .begun _ .reload => fun _ => ∅
  | .answered _ (.read _) (.ok content) => overlay (decode content)
  | _ => id

/-- The records that come out when all that has happened is done again. -/
def replay (h : List Happening) : IndexData := h.foldr effect ∅

/-- What a change does to the records. -/
def editing : Happening → IndexData → IndexData
  | .begun _ (.edit e) => e.revise
  | _ => id

/-- Some records after the changes among what has happened. -/
def edited (d : IndexData) (h : List Happening) : IndexData := h.foldr editing d

lemma data_apply (e : Edit) (i : Index) : (e.apply i).data = e.revise i.data := by
  cases e with
  | record file literal path =>
    by_cases hid : literal = path
    · simp [Edit.revise, Edit.apply, record, hid]
    · by_cases hsame : (i.recordsOf file).get? literal = some path
      · have hsame' : (recordsOf { path := "", data := i.data } file).get? literal = some path := hsame
        simp [Edit.revise, Edit.apply, record, hid, hsame, hsame']
      · have hsame' : ¬ (recordsOf { path := "", data := i.data } file).get? literal = some path := hsame
        simp only [Edit.revise, Edit.apply, record, hid, hsame, hsame', if_false]
        rfl
  | clear file =>
    simp only [Edit.revise, Edit.apply, clear]
    split <;> rfl

lemma foldl_update_of_nodup {es : List (String × Table String String)} {t : IndexData}
    (hd : ((t.entries ++ es).map Prod.fst).Nodup) :
    (es.foldl (fun d e => d.update e.1 ∅ fun t => t.merge e.2) t).entries = t.entries ++ es := by
  induction es generalizing t with
  | nil => simp
  | cons e es ih =>
    have hnew : ¬ t.contains e.1 = true := by
      rw [List.map_append, List.nodup_append] at hd
      rw [Table.contains_iff]
      exact fun h => hd.2.2 _ h _ (List.mem_cons_self ..) rfl
    have hnone : t.get? e.1 = none := by simpa [Table.contains] using hnew
    have hentries : (t.update e.1 ∅ fun t => t.merge e.2).entries = t.entries ++ [e] := by
      rw [Table.update, Table.entries_insert_new hnew, hnone]
      exact congrArg (fun v => t.entries ++ [(e.1, v)]) (Table.ofList_of_nodup e.2.distinct)
    rw [List.foldl_cons, ih (by simpa [hentries] using hd), hentries, List.append_assoc,
      List.singleton_append]

/-- Without persisted records those that were made meanwhile are all. -/
lemma overlay_empty (d : IndexData) : overlay ∅ d = d :=
  Table.ext_entries (foldl_update_of_nodup (t := ∅) d.distinct)

lemma recordsIn_eq (content : String) : recordsIn content = .ok (decode content) ∨
    decode content = ∅ ∧ ∃ f, recordsIn content = .error f := by
  unfold recordsIn decode
  rcases IndexData.parse content with (_ | _ | _ | _) | d
  all_goals simp

/-- Whatever a load ends with, the records that it found are entered below those made meanwhile. -/
lemma data_afterReading_read (i : Index) (ticket : Nat) (content : String) :
    (i.afterReading ticket (recordsIn content)).data = overlay (decode content) i.data := by
  rcases recordsIn_eq content with h | ⟨hempty, f, h⟩
  · rw [h]
    rfl
  · rw [h, hempty, overlay_empty]
    rfl

lemma data_afterReading_unread (i : Index) (ticket : Nat) (f : Fault) :
    (i.afterReading ticket (unreadRecords f)).data = i.data := by
  cases f <;> first | exact overlay_empty i.data | rfl

lemma data_leaveLoad (i : Index) (ticket : Nat) : (i.leaveLoad ticket).data = i.data := by
  unfold leaveLoad
  split <;> rfl

lemma data_unsaved (i : Index) (f : Fault) : (i.unsaved f).data = i.data := by
  cases f <;> rfl

variable {path : String} {c c' : Clerks} {d d' : Picture}

/-- The records of a picture are those that come out when all is done again. -/
def Picture.Replayed (d : Picture) : Prop := d.index.data = replay d.history

theorem Picture.Replayed.move (h : d.Replayed) (hm : Move path d d') : d'.Replayed := by
  unfold Picture.Replayed at *
  cases hm with
  | edit e =>
    rw [data_apply, h]
    rfl
  | reload => rfl
  | settle front back x n ticket q a r hc hl =>
    cases hl with
    | absent => exact (overlay_empty _).trans h
    | unprobed f => exact (data_afterReading_unread _ _ f).trans h
    | read again content =>
      rw [data_afterReading_read, h]
      rfl
    | unread again f hf => exact (data_afterReading_unread _ _ f).trans h
  | learn front back n ticket r hc hr => exact (data_leaveLoad _ _).trans h
  | leave front back n ticket hc => exact (data_leaveLoad _ _).trans h
  | write front back x n ticket snapshot q a hc hp => cases hp <;> exact h
  | fail front back x n ticket snapshot q f hc hs =>
    have hdata : ((d.index.unsaved f).dequeue ticket).data = d.index.data := data_unsaved _ f
    rw [hdata, h]
    cases hs <;> rfl
  | _ => exact h

/-! ## Loads that have ended -/

/-- By this event the load with a number ends, and these are the records that it has obtained. -/
inductive Obtained (n : Nat) : Happening → IndexData → Prop
  /-- There is no file. -/
  | absent (path : String) : Obtained n (.answered n (.probe path) (.ok false)) ∅
  /-- It cannot be told whether there is a file. -/
  | unprobed (path : String) (f : WorkspaceFault) :
    Obtained n (.answered n (.probe path) (.error (.workspace f))) ∅
  /-- The file has been read. -/
  | read (path content : String) : Obtained n (.answered n (.read path) (.ok content)) (decode content)
  /-- The file cannot be read. -/
  | unread (path : String) (f : WorkspaceFault) :
    Obtained n (.answered n (.read path) (.error (.workspace f))) ∅

/-- A load has read a content. -/
def HasRead (h : List Happening) (n : Nat) : Prop :=
  ∃ path content, .answered n (.read path) (.ok content) ∈ h

/-- A load has obtained some records, and this was the last that happened to it. -/
structure Settled (h : List Happening) (n : Nat) (later : List Happening) (e : Happening)
    (earlier : List Happening) (persisted : IndexData) : Prop where
  split : h = later ++ e :: earlier
  obtained : Obtained n e persisted
  last : ∀ e ∈ later, number e ≠ n
  first : ¬ HasRead earlier n

/-- A load with a number has ended well. -/
structure Picture.Ended (d : Picture) (n : Nat) : Prop where
  settled : ∃ later e earlier persisted, Settled d.history n later e earlier persisted
  fresh : n < d.fresh
  gone : ∀ x ∈ d.clerks, x.number ≠ n

/-- No load that is under way has read a content. -/
def Picture.Unread (d : Picture) : Prop :=
  ∀ x ∈ d.clerks, ∀ n ticket, x.load? = some (n, ticket) → ¬ HasRead d.history n

/-- A load belongs to a ticket: nobody else runs under this ticket, and if it has ended well, it has
obtained some records. -/
structure Picture.Tracks (d : Picture) (ticket n : Nat) : Prop where
  begun : ticket < d.index.loadsBegun
  alone : ∀ x ∈ d.clerks, ∀ m, x.load? = some (m, ticket) → m = n
  ended : d.index.loadOutcome? ticket = some (.ok ()) → d.Ended n

/-- A reload waits for the load that it has started, and is told that it is done when this load has
ended well. -/
structure Picture.Reloads (d : Picture) : Prop where
  waits : ∀ n ticket, .begun n .reload ∈ d.history → .awaiter n ticket ∈ d.clerks →
    d.Tracks ticket (n + 1)
  back : ∀ n, .begun n .reload ∈ d.history → .returned n .done ∈ d.history → d.Ended (n + 1)

lemma HasRead.mono {h h' : List Happening} (hh : h ⊆ h') {n : Nat} (hr : HasRead h n) : HasRead h' n :=
  hr.imp fun _ hr => hr.imp fun _ hr => hh hr

/-- A load that has ended well, has. -/
theorem Picture.Ended.move {n : Nat} (h : d.Ended n) (hm : Move path d d') :
    d'.Ended n := by
  obtain ⟨later, e, earlier, persisted, hsettled⟩ := h.settled
  -- whatever happens now happens to another number
  have hmore : ∀ news, d'.history = news ++ d.history → (∀ e ∈ news, number e ≠ n) →
      ∃ later e earlier persisted, Settled d'.history n later e earlier persisted := by
    intro news hnews hne
    refine ⟨news ++ later, e, earlier, persisted, ?_, hsettled.obtained, fun e he => ?_, hsettled.first⟩
    · rw [hnews, hsettled.split, List.append_assoc]
    · rcases List.mem_append.mp he with he | he
      · exact hne e he
      · exact hsettled.last e he
  rcases hm.shape with ⟨xs, news, hs⟩ | ⟨front, x, back, y, news, hs⟩
  · refine ⟨hmore news hs.history fun e he => ?_, Nat.lt_trans h.fresh hs.before, fun x hx => ?_⟩
    · rw [hs.about e he]
      exact Nat.ne_of_gt h.fresh
    · rw [hs.clerks] at hx
      rcases List.mem_append.mp hx with hx | hx
      · exact Nat.ne_of_gt (Nat.lt_of_lt_of_le h.fresh (hs.number_lt x hx).1)
      · exact h.gone x hx
  · have hx : x.number ≠ n := h.gone x (by simp [hs.before])
    refine ⟨hmore news hs.history fun e he => hs.about e he ▸ hx, hs.fresh ▸ h.fresh, fun z hz => ?_⟩
    rw [hs.after] at hz
    rcases List.mem_append.mp hz with hz | hz
    · rw [(hs.number z (Option.mem_toList.mp hz)).1]
      exact hx
    · exact h.gone z (mem_of_rest hs.before hz)

/-- The loads that are under way after a move were under way before, or the move has started them. -/
lemma Move.load? (hm : Move path d d') {x : Clerk} (hx : x ∈ d'.clerks) {n ticket : Nat}
    (hl : x.load? = some (n, ticket)) :
    (∃ z ∈ d.clerks, z.load? = some (n, ticket)) ∨
      ticket = d.index.loadsBegun ∧ ticket < d'.index.loadsBegun ∧ d.fresh ≤ n := by
  rcases hm.shape with ⟨xs, news, hs⟩ | ⟨front, z, back, y, news, hs⟩
  · rw [hs.clerks] at hx
    rcases List.mem_append.mp hx with hx | hx
    · obtain ⟨hticket, hlt⟩ := hs.loads x hx n ticket hl
      exact Or.inr ⟨hticket, hlt, Clerk.number_of_load? hl ▸ (hs.number_lt x hx).1⟩
    · exact Or.inl ⟨x, hx, hl⟩
  · rw [hs.after] at hx
    left
    rcases List.mem_append.mp hx with hx | hx
    · exact ⟨z, by simp [hs.before], (hs.number x (Option.mem_toList.mp hx)).2 ▸ hl⟩
    · exact ⟨x, mem_of_rest hs.before hx, hl⟩

/-- One who has gone on and does not pause again is not among those that pause. -/
lemma Picture.Numbered.gone (hn : d.Numbered) {front back : List Clerk} {x : Clerk}
    (hc : d.clerks = front ++ x :: back) : ∀ z ∈ front ++ back, z.number ≠ x.number := by
  have hperm : d.clerks.Perm (x :: (front ++ back)) := hc ▸ List.perm_middle
  have hnot := (List.nodup_cons.mp ((hperm.map Clerk.number).nodup_iff.mp hn.distinct)).1
  exact fun z hz heq => hnot (heq ▸ List.mem_map_of_mem hz)

/-- A load that has read a content now does not pause any more. -/
lemma Move.hasRead (hn : d.Numbered) (hm : Move path d d') {n : Nat} (hr : HasRead d'.history n) :
    HasRead d.history n ∨ ∀ x ∈ d'.clerks, x.number ≠ n := by
  obtain ⟨p, content, hmem⟩ := hr
  cases hm with
  | settle front back x m ticket q a r hc hl =>
    cases hl with
    | read again content' =>
      rcases List.mem_cons.mp hmem with heq | hmem
      · cases heq
        exact Or.inr (hn.gone hc)
      · exact Or.inl ⟨p, content, hmem⟩
    | unread again f hf =>
      rcases List.mem_cons.mp hmem with heq | hmem
      · cases heq
      · exact Or.inl ⟨p, content, hmem⟩
    | _ => exact Or.inl ⟨p, content, by simpa using hmem⟩
  | again front back m ticket f hc =>
    rcases List.mem_cons.mp hmem with heq | hmem
    · cases heq
    · rcases List.mem_cons.mp hmem with heq | hmem
      · cases heq
      · exact Or.inl ⟨p, content, hmem⟩
  | write front back x m ticket snapshot q a hc hp =>
    cases hp <;> exact Or.inl ⟨p, content, by simpa using hmem⟩
  | fail front back x m ticket snapshot q f hc hs =>
    cases hs <;> exact Or.inl ⟨p, content, by simpa using hmem⟩
  | stop front back m ticket hc => exact Or.inl ⟨p, content, hmem⟩
  | _ => exact Or.inl ⟨p, content, by simpa using hmem⟩

theorem Picture.Unread.move (h : d.Unread) (hn : d.Numbered) (hm : Move path d d') : d'.Unread := by
  intro x hx n ticket hl hread
  rcases hm.hasRead hn hread with hread | hgone
  · rcases hm.load? hx hl with ⟨z, hz, hl⟩ | ⟨-, -, hfresh⟩
    · exact h z hz n ticket hl hread
    · obtain ⟨p, content, hmem⟩ := hread
      have hlt : n < d.fresh := hn.known _ hmem
      omega
  · exact hgone x hx (Clerk.number_of_load? hl)

lemma loads_leaveLoad (i : Index) (ticket : Nat) : (i.leaveLoad ticket).loads = i.loads := by
  unfold leaveLoad
  split <;> rfl

lemma loads_unsaved (i : Index) (f : Fault) : (i.unsaved f).loads = i.loads := by
  cases f <;> rfl

lemma loadOutcome?_afterReading_ne (i : Index) {t ticket : Nat} (ht : t ≠ ticket)
    (r : Except Fault IndexData) : (i.afterReading ticket r).loadOutcome? t = i.loadOutcome? t := by
  have hbeq : (t == ticket) = false := beq_eq_false_iff_ne.mpr ht
  cases r <;> simp [afterReading, finishLoad, loadOutcome?, List.lookup_cons, hbeq]

lemma Clerk.Loads.load? {x : Clerk} {n ticket : Nat} {q : Question} {a : q.Answer}
    {r : Except Fault IndexData} (h : x.Loads path n ticket q a r) : x.load? = some (n, ticket) := by
  cases h <;> rfl

lemma Clerk.Loads.obtained {x : Clerk} {n ticket : Nat} {q : Question} {a : q.Answer}
    {r : Except Fault IndexData} (h : x.Loads path n ticket q a r) (hr : r.isOk = true) :
    ∃ persisted, Obtained n (.answered n q a) persisted := by
  cases h with
  | absent => exact ⟨_, .absent path⟩
  | read again content => exact ⟨_, .read path content⟩
  | unprobed f =>
    cases f with
    | workspace e => exact ⟨_, .unprobed path e⟩
    | _ => cases hr
  | unread again f hf =>
    cases f with
    | workspace e => exact ⟨_, .unread path e⟩
    | _ => cases hr

/-- The end of a load that obtains some records. -/
lemma Picture.Ended.of_settle (hn : d.Numbered) (hu : d.Unread) {front back : List Clerk} {x : Clerk}
    {n ticket : Nat} {q : Question} {a : q.Answer} {r : Except Fault IndexData} (hr : r.isOk = true)
    (hc : d.clerks = front ++ x :: back) (hl : x.Loads path n ticket q a r) :
    Picture.Ended { d with
      clerks := front ++ back
      index := d.index.afterReading ticket r
      history := .answered n q a :: d.history } n := by
  have hx : x ∈ d.clerks := by simp [hc]
  have hnumber := Clerk.number_of_load? hl.load?
  obtain ⟨persisted, hobtained⟩ := hl.obtained hr
  refine ⟨⟨[], _, d.history, persisted, rfl, hobtained, fun _ he => absurd he List.not_mem_nil, ?_⟩,
    hnumber ▸ hn.fresh x hx, hnumber ▸ hn.gone hc⟩
  exact hu x hx n ticket hl.load?

/-- A load that has ended well now or before has obtained some records. -/
lemma Move.ended (hm : Move path d d') (hn : d.Numbered) (hu : d.Unread) {ticket : Nat}
    (ho : d'.index.loadOutcome? ticket = some (.ok ())) :
    d.index.loadOutcome? ticket = some (.ok ()) ∨
      ∃ x ∈ d.clerks, ∃ n, x.load? = some (n, ticket) ∧ d'.Ended n := by
  cases hm with
  | settle front back x n t q a r hc hl =>
    by_cases ht : ticket = t
    · subst ht
      rw [loadOutcome?_afterReading] at ho
      have hr : r.isOk = true := by
        cases r with
        | ok r => rfl
        | error f => cases ho
      exact Or.inr ⟨x, by simp [hc], n, hl.load?, .of_settle hn hu hr hc hl⟩
    · rw [loadOutcome?_afterReading_ne _ ht] at ho
      exact Or.inl ho
  | edit e =>
    rw [rewritten_apply e] at ho
    exact Or.inl ho
  | learn front back n t r hc hr => exact Or.inl (by simpa [loadOutcome?, loads_leaveLoad] using ho)
  | leave front back n t hc => exact Or.inl (by simpa [loadOutcome?, loads_leaveLoad] using ho)
  | fail front back x n t snapshot q f hc hs =>
    refine Or.inl ?_
    have hloads : ((d.index.unsaved f).dequeue t).loads = d.index.loads := loads_unsaved _ f
    simpa [loadOutcome?, hloads] using ho
  | _ => exact Or.inl ho

lemma Move.loadsBegun (hm : Move path d d') : d.index.loadsBegun ≤ d'.index.loadsBegun := by
  cases hm with
  | edit e =>
    rw [rewritten_apply e]
  | load _ _ => exact Nat.le_succ _
  | reload => exact Nat.le_succ _
  | settle front back x n t q a r hc hl => cases r <;> exact Nat.le_refl _
  | learn front back n t r hc hr =>
    unfold leaveLoad
    split <;> exact Nat.le_refl _
  | leave front back n t hc =>
    unfold leaveLoad
    split <;> exact Nat.le_refl _
  | fail front back x n t snapshot q f hc hs => cases f <;> exact Nat.le_refl _
  | _ => exact Nat.le_refl _

theorem Picture.Tracks.move {ticket n : Nat} (h : d.Tracks ticket n) (hn : d.Numbered) (hu : d.Unread)
    (hm : Move path d d') : d'.Tracks ticket n where
  begun := Nat.lt_of_lt_of_le h.begun hm.loadsBegun
  alone x hx m hl := by
    rcases hm.load? hx hl with ⟨z, hz, hl⟩ | ⟨heq, -⟩
    · exact h.alone z hz m hl
    · exact absurd heq (Nat.ne_of_lt h.begun)
  ended ho := by
    rcases hm.ended hn hu ho with ho | ⟨x, hx, m, hl, hended⟩
    · exact (h.ended ho).move hm
    · exact h.alone x hx m hl ▸ hended

/-- The reload whose beginning is known now was known before, or it begins now. -/
lemma Move.begun_reload (hm : Move path d d') {n : Nat} (hb : .begun n .reload ∈ d'.history) :
    .begun n .reload ∈ d.history ∨ n = d.fresh ∧ d' =
      { clerks := .awaiter d.fresh d.index.loadsBegun :: .starter (d.fresh + 1) d.index.loadsBegun ::
          d.clerks
        index := d.index.forget.whileLoading
        history := .begun d.fresh .reload :: d.history
        fresh := d.fresh + 2 } := by
  cases hm with
  | reload =>
    rcases List.mem_cons.mp hb with heq | hb
    · cases heq
      exact Or.inr ⟨rfl, rfl⟩
    · exact Or.inl hb
  | stop front back m t hc => exact Or.inl hb
  | _ => exact Or.inl (by simpa using hb)

/-- Who waits for a load now has waited for it before, or comes now. -/
lemma Move.awaiter (hm : Move path d d') {n ticket : Nat} (hx : .awaiter n ticket ∈ d'.clerks) :
    .awaiter n ticket ∈ d.clerks ∨ d.fresh ≤ n := by
  rcases hm.shape with ⟨xs, news, hs⟩ | ⟨front, x, back, y, news, hs⟩
  · rw [hs.clerks] at hx
    rcases List.mem_append.mp hx with hx | hx
    · exact Or.inr (hs.number_lt _ hx).1
    · exact Or.inl hx
  · rw [hs.after] at hx
    rcases List.mem_append.mp hx with hx | hx
    · exact absurd (Option.mem_toList.mp hx) (hs.busy n ticket)
    · exact Or.inl (mem_of_rest hs.before hx)

/-- Who is told now that it is done is new, was told before, or waited for a load that has ended well. -/
lemma Move.told_done (hm : Move path d d') {n : Nat} (hr : .returned n .done ∈ d'.history) :
    .returned n .done ∈ d.history ∨ d.fresh ≤ n ∨
      ∃ ticket, .awaiter n ticket ∈ d.clerks ∧ d.index.loadOutcome? ticket = some (.ok ()) := by
  cases hm with
  | edit e =>
    simp only [List.mem_cons, Event.returned.injEq, reduceCtorEq, false_or] at hr
    exact hr.elim (fun h => Or.inr (Or.inl (Nat.le_of_eq h.1.symm))) Or.inl
  | known _ =>
    simp only [List.mem_cons, Event.returned.injEq, reduceCtorEq, false_or] at hr
    exact hr.elim (fun h => Or.inr (Or.inl (Nat.le_of_eq h.1.symm))) Or.inl
  | stop front back m t hc => exact Or.inl hr
  | learn front back m t r hc ho =>
    rcases List.mem_cons.mp hr with heq | hr
    · cases r with
      | error f => cases heq
      | ok u =>
        cases heq
        exact Or.inr (Or.inr ⟨t, by simp [hc], ho⟩)
    · exact Or.inl hr
  | fail front back x m t snapshot q f hc hs =>
    refine Or.inl ?_
    cases f <;> simpa [Told.unsaved] using hr
  | _ => exact Or.inl (by simpa using hr)

/-- All tickets have been given out. -/
structure Picture.Ticketed (d : Picture) : Prop where
  running : ∀ x ∈ d.clerks, ∀ n ticket, x.load? = some (n, ticket) → ticket < d.index.loadsBegun
  ended : ∀ l ∈ d.index.loads, l.1 < d.index.loadsBegun

/-- The loads that have ended now had ended before, or were under way. -/
lemma Move.loads (hm : Move path d d') {l : Nat × Except Fault Unit} (hl : l ∈ d'.index.loads) :
    l ∈ d.index.loads ∨ ∃ x ∈ d.clerks, ∃ n, x.load? = some (n, l.1) := by
  cases hm with
  | edit e =>
    rw [rewritten_apply e] at hl
    exact Or.inl hl
  | settle front back x n t q a r hc hx =>
    have hmem : l.1 = t ∨ l ∈ d.index.loads := by
      cases r <;> exact (List.mem_cons.mp hl).imp_left (congrArg Prod.fst)
    rcases hmem with rfl | hmem
    · exact Or.inr ⟨x, by simp [hc], n, hx.load?⟩
    · exact Or.inl hmem
  | learn front back n t r hc hr => exact Or.inl (loads_leaveLoad d.index t ▸ hl)
  | leave front back n t hc => exact Or.inl (loads_leaveLoad d.index t ▸ hl)
  | fail front back x n t snapshot q f hc hs => exact Or.inl (loads_unsaved d.index f ▸ hl)
  | _ => exact Or.inl hl

theorem Picture.Ticketed.move (h : d.Ticketed) (hm : Move path d d') : d'.Ticketed where
  running x hx n ticket hl := by
    rcases hm.load? hx hl with ⟨z, hz, hl⟩ | ⟨-, hlt, -⟩
    · exact Nat.lt_of_lt_of_le (h.running z hz n ticket hl) hm.loadsBegun
    · exact hlt
  ended l hl := by
    rcases hm.loads hl with hl | ⟨x, hx, n, hload⟩
    · exact Nat.lt_of_lt_of_le (h.ended l hl) hm.loadsBegun
    · exact Nat.lt_of_lt_of_le (h.running x hx n l.1 hload) hm.loadsBegun

/-- The load that a reload starts is tracked. -/
lemma Picture.Ticketed.tracks (h : d.Ticketed) {n : Nat} (history : List Happening) (fresh : Nat) :
    Picture.Tracks
      { clerks := .awaiter n d.index.loadsBegun :: .starter (n + 1) d.index.loadsBegun :: d.clerks
        index := d.index.forget.whileLoading
        history := history
        fresh := fresh } d.index.loadsBegun (n + 1) where
  begun := Nat.lt_succ_self _
  alone x hx m hl := by
    rcases List.mem_cons.mp hx with rfl | hx
    · cases hl
    · rcases List.mem_cons.mp hx with rfl | hx
      · cases hl
        rfl
      · exact absurd (h.running x hx m _ hl) (Nat.lt_irrefl _)
  ended ho := by
    have hnone : List.lookup d.index.loadsBegun d.index.loads = none :=
      List.lookup_eq_none_iff.mpr fun l hl => by simpa using (Nat.ne_of_lt (h.ended l hl)).symm
    exact absurd (hnone.symm.trans ho) (by simp)

theorem Picture.Reloads.move (h : d.Reloads) (hn : d.Numbered) (hu : d.Unread) (ht : d.Ticketed)
    (hm : Move path d d') : d'.Reloads where
  waits n ticket hb hx := by
    rcases hm.begun_reload hb with hb | ⟨rfl, rfl⟩
    · rcases hm.awaiter hx with hx | hle
      · exact (h.waits n ticket hb hx).move hn hu hm
      · exact absurd (hn.known _ hb) (Nat.not_lt_of_le hle)
    · rcases List.mem_cons.mp hx with heq | hx
      · cases heq
        exact ht.tracks _ _
      · have hx := (List.mem_cons.mp hx).resolve_left nofun
        exact absurd (hn.fresh _ hx) (Nat.lt_irrefl _)
  back n hb hr := by
    rcases hm.begun_reload hb with hb | ⟨rfl, rfl⟩
    · rcases hm.told_done hr with hr | hle | ⟨ticket, hx, ho⟩
      · exact (h.back n hb hr).move hm
      · exact absurd (hn.known _ hb) (Nat.not_lt_of_le hle)
      · exact ((h.waits n ticket hb hx).ended ho).move hm
    · have hr : .returned d.fresh .done ∈ d.history := by simpa using hr
      exact absurd (hn.known _ hr) (Nat.lt_irrefl _)

/-! ## What a reload leaves -/

/-- What holds of every picture. -/
structure Picture.Sound (d : Picture) : Prop where
  replayed : d.Replayed
  numbered : d.Numbered
  unread : d.Unread
  ticketed : d.Ticketed
  reloads : d.Reloads

theorem Picture.Sound.move (h : d.Sound) (hm : Move path d d') : d'.Sound where
  replayed := h.replayed.move hm
  numbered := h.numbered.move hm
  unread := h.unread.move h.numbered hm
  ticketed := h.ticketed.move hm
  reloads := h.reloads.move h.numbered h.unread h.ticketed hm

lemma Picture.sound_start (path : String) : Picture.Sound ⟨[], { path := path }, [], 0⟩ where
  replayed := rfl
  numbered := Picture.numbered_start _
  unread _ hx := absurd hx List.not_mem_nil
  ticketed := ⟨fun _ hx => absurd hx List.not_mem_nil, fun _ hl => absurd hl List.not_mem_nil⟩
  reloads := ⟨fun _ _ hb => absurd hb List.not_mem_nil, fun _ hb => absurd hb List.not_mem_nil⟩

/-- In whatever order users come and take their turns, their picture is sound. -/
theorem exists_sound {s : Service} (hs : s.index = { path := path }) (h : Reachable Demand.work s c) :
    ∃ d : Picture, d.Of path c ∧ d.Sound :=
  exists_picture (by rw [hs]) (by rw [hs]; exact Picture.sound_start path)
    (fun _ _ hd hm => hd.move hm) h

/-- Nothing that has happened before a reload matters. -/
lemma replay_append_reload (after before : List Happening) (n : Nat) :
    replay (after ++ .begun n .reload :: before) = replay after := by
  rw [replay, List.foldr_append]
  rfl

/-- What loads other than this one have read is nothing. -/
def OnlyReads (n : Nat) (h : List Happening) : Prop :=
  ∀ m path content, .answered m (.read path) (.ok content) ∈ h → m = n ∨ decode content = ∅

lemma effect_eq_editing {e : Happening} (hreload : ∀ n, e ≠ .begun n .reload)
    (hread : ∀ n path content, e = .answered n (.read path) (.ok content) → decode content = ∅) :
    effect e = editing e := by
  funext d
  cases e with
  | begun n r =>
    cases r with
    | reload => exact absurd rfl (hreload n)
    | _ => rfl
  | answered n q a =>
    cases q with
    | read path =>
      cases a with
      | ok content =>
        show overlay (decode content) d = d
        rw [hread n path content rfl, overlay_empty]
      | error f => rfl
    | _ => rfl
  | _ => rfl

lemma replay_append {h : List Happening} {n : Nat} (hreload : ∀ n, .begun n .reload ∉ h)
    (hr : OnlyReads n h) (hn : ¬ HasRead h n) (rest : List Happening) :
    replay (h ++ rest) = edited (replay rest) h := by
  rw [replay, edited, List.foldr_append]
  refine List.foldr_ext _ _ _ fun e he d => ?_
  refine congrFun (effect_eq_editing ?_ ?_) d
  · rintro n rfl
    exact hreload n he
  · rintro m path content rfl
    refine (hr m path content he).resolve_left ?_
    rintro rfl
    exact hn ⟨path, content, he⟩

lemma Obtained.replay_cons {n : Nat} {e : Happening} {persisted : IndexData}
    (h : Obtained n e persisted) (rest : List Happening) :
    replay (e :: rest) = overlay persisted (replay rest) := by
  cases h with
  | read path content => rfl
  | _ => exact (overlay_empty _).symm

lemma Obtained.number_eq {n : Nat} {e : Happening} {persisted : IndexData}
    (h : Obtained n e persisted) : number e = n := by
  cases h <;> rfl

lemma Obtained.ne_begun {n m : Nat} {r : Demand} {persisted : IndexData} :
    ¬ Obtained n (.begun m r) persisted := by
  intro h
  cases h

/-- A load that a reload has started ends after the reload has begun. -/
lemma Settled.since {h after before later earlier : List Happening} {n : Nat} {r : Demand}
    {e : Happening} {persisted : IndexData} (hs : Settled h (n + 1) later e earlier persisted)
    (hc : Chronicle h) (hh : h = after ++ .begun n r :: before) :
    ∃ mid, Settled after (n + 1) later e mid persisted := by
  have hsplit : later ++ e :: earlier = after ++ .begun n r :: before := hs.split.symm.trans hh
  rcases List.append_eq_append_iff.mp hsplit with ⟨as, ha, hrest⟩ | ⟨bs, hb, hrest⟩
  · cases as with
    | nil =>
      obtain ⟨rfl, -⟩ := List.cons.inj hrest
      exact absurd hs.obtained Obtained.ne_begun
    | cons a mid =>
      obtain ⟨rfl, rfl⟩ := List.cons.inj hrest
      exact ⟨mid, ha, hs.obtained, hs.last, fun hr => hs.first (hr.mono (by simp))⟩
  · -- what has happened before the reload began is about smaller numbers
    exfalso
    cases bs with
    | nil =>
      obtain ⟨rfl, -⟩ := List.cons.inj hrest
      exact Obtained.ne_begun hs.obtained
    | cons b mid =>
      obtain ⟨rfl, rfl⟩ := List.cons.inj hrest
      have hlt := (hh ▸ hc).number_lt e (by simp)
      rw [hs.obtained.number_eq] at hlt
      omega

/-- What a reload that has returned leaves. -/
lemma Picture.Sound.reloaded (h : d.Sound) {n : Nat} {after before : List Happening}
    (hh : d.history = after ++ .begun n .reload :: before) (hlast : ∀ m, .begun m .reload ∉ after)
    (hback : .returned n .done ∈ after) :
    ∃ later e earlier persisted, Settled after (n + 1) later e earlier persisted ∧
      (OnlyReads (n + 1) after →
        d.index.data = edited (overlay persisted (edited ∅ earlier)) later) := by
  have hbegun : .begun n .reload ∈ d.history := by simp [hh]
  have hreturned : .returned n .done ∈ d.history := by simp [hh, hback]
  obtain ⟨later, e, earlier, persisted, hsettled⟩ := (h.reloads.back n hbegun hreturned).settled
  obtain ⟨mid, hmid⟩ := hsettled.since h.numbered.older hh
  refine ⟨later, e, mid, persisted, hmid, fun honly => ?_⟩
  have hlater : later ⊆ after := by simp [hmid.split]
  have hearlier : mid ⊆ after := fun x hx => by simp [hmid.split, hx]
  have hunread : ¬ HasRead later (n + 1) := by
    rintro ⟨p, content, hmem⟩
    exact hmid.last _ hmem rfl
  have hmade := replay_append (fun m hm => hlast m (hearlier hm))
    (fun m p content hm => honly m p content (hearlier hm)) hmid.first []
  rw [List.append_nil, show replay [] = ∅ from rfl] at hmade
  rw [h.replayed, hh, replay_append_reload, hmid.split, replay_append (fun m hm => hlast m (hlater hm))
    (fun m p content hm => honly m p content (hlater hm)) hunread, hmid.obtained.replay_cons, hmade]

/-- After a reload the records are those that come out of all that has happened since it began.  If it
has returned, its load has obtained some records; and if what other loads have read since it began is
nothing, the records are those, overlaid with the ones that were made meanwhile, and then changed as they
were changed. -/
theorem reload_replaces {s : Service} {n : Nat} {after before : List Happening}
    (hs : s.index = { path := path }) (h : Reachable Demand.work s c)
    (hh : c.history = after ++ .begun n .reload :: before) (hlast : ∀ m, .begun m .reload ∉ after)
    (hback : .returned n .done ∈ after) :
    c.state.index.data = replay after ∧
      ∃ later e earlier persisted, Settled after (n + 1) later e earlier persisted ∧
        (OnlyReads (n + 1) after →
          c.state.index.data = edited (overlay persisted (edited ∅ earlier)) later) := by
  obtain ⟨d, hd, hsound⟩ := exists_sound hs h
  rw [hd.history] at hh
  rw [hd.index]
  refine ⟨?_, hsound.reloaded hh hlast hback⟩
  rw [hsound.replayed, hh, replay_append_reload]

lemma recordsIn_render (d : IndexData) : recordsIn d.render = .ok d.ordered := by
  rw [recordsIn, IndexData.parse_render]

/-- What has happened since a reload that a load overtakes: this load has read old records, the reload
new ones. -/
def sinceOvertaken (new old : IndexData) : List Happening :=
  [.returned 0 .done, .answered 1 (.read "i") (.ok old.render), .returned 2 .done,
    .answered 3 (.read "i") (.ok new.render), .put 3 (.read "i"), .answered 3 (.probe "i") (.ok true),
    .put 3 (.probe "i")]

/-- The picture after a load that was begun before a reload has ended after it. -/
def overtaken (new old : IndexData) : Picture where
  clerks := []
  index := {
    path := "i"
    data := overlay old.ordered new.ordered
    loaded := true
    loading? := some 1
    loads := [(0, .ok ()), (1, .ok ())]
    loadsBegun := 2 }
  history := sinceOvertaken new old ++ .begun 2 .reload ::
    [.put 1 (.read "i"), .answered 1 (.probe "i") (.ok true), .put 1 (.probe "i"), .begun 0 .load]
  fresh := 4

lemma moves_overtaken (new old : IndexData) :
    Relation.ReflTransGen (Move "i") ⟨[], { path := "i" }, [], 0⟩ (overtaken new old) := by
  have h₁ := Relation.ReflTransGen.refl (r := Move "i") (a := ⟨[], { path := "i" }, [], 0⟩)
  have h₂ := h₁.tail (.load rfl rfl)
  have h₃ := h₂.tail (.start [.awaiter 0 0] [] 1 0 rfl)
  have h₄ := h₃.tail (.find [] [.awaiter 0 0] 1 0 rfl)
  have h₅ := h₄.tail .reload
  have h₆ := h₅.tail (.start [.awaiter 2 1] [.reader 1 0 false, .awaiter 0 0] 3 1 rfl)
  have h₇ := h₆.tail (.find [] [.awaiter 2 1, .reader 1 0 false, .awaiter 0 0] 3 1 rfl)
  have h₈ := h₇.tail (.settle [] [.awaiter 2 1, .reader 1 0 false, .awaiter 0 0] _ 3 1 _ _ _ rfl
    (.read false new.render))
  rw [recordsIn_render] at h₈
  have h₉ := h₈.tail (.learn [] [.reader 1 0 false, .awaiter 0 0] 2 1 (.ok ()) rfl rfl)
  have h₁₀ := h₉.tail (.settle [] [.awaiter 0 0] _ 1 0 _ _ _ rfl (.read false old.render))
  rw [recordsIn_render] at h₁₀
  exact h₁₀.tail (.learn [] [] 0 0 (.ok ()) rfl rfl)

lemma decode_render (d : IndexData) : decode d.render = d.ordered := by
  rw [decode, IndexData.parse_render]

/-- Records with one import. -/
def note : IndexData := Table.empty.insert "a.sol" (Table.empty.insert "x" "y")

/-- The service before anything has happened. -/
def newService : Service := { settings := {}, index := { path := "i" } }

/-- A reload while a load is under way that then finds no file with records leaves what it has read
itself. -/
theorem reload_replaces_overtaken : ∃ c : Clerks, Reachable Demand.work newService c ∧
    ∃ later e earlier persisted, Settled (sinceOvertaken note ∅) 3 later e earlier persisted ∧
      c.state.index.data = edited (overlay persisted (edited ∅ earlier)) later := by
  obtain ⟨c, hc, hd⟩ := exists_reachable (s := newService) rfl (moves_overtaken note ∅)
  obtain ⟨-, later, e, earlier, persisted, hsettled, hdata⟩ :=
    reload_replaces rfl hc hd.history (by simp [sinceOvertaken]) (by simp [sinceOvertaken])
  refine ⟨c, hc, later, e, earlier, persisted, hsettled, hdata fun m p content hm => ?_⟩
  have hread : m = 1 ∧ content = (∅ : IndexData).render ∨ m = 3 := by
    simp only [sinceOvertaken, List.mem_cons, reduceCtorEq, false_or, List.not_mem_nil, or_false] at hm
    rcases hm with hm | hm | hm
    · cases hm
      exact Or.inl ⟨rfl, rfl⟩
    · cases hm
      exact Or.inr rfl
    · cases hm
  rcases hread with ⟨-, rfl⟩ | rfl
  · exact Or.inr (decode_render ∅)
  · exact Or.inl rfl

lemma edited_of_silent {h : List Happening} (hh : ∀ n e, .begun n (.edit e) ∉ h) (d : IndexData) :
    edited d h = d := by
  induction h with
  | nil => rfl
  | cons e h ih =>
    have hid : editing e = id := by
      cases e with
      | begun n r =>
        cases r with
        | edit x => exact absurd List.mem_cons_self (hh n x)
        | _ => rfl
      | _ => rfl
    rw [edited, List.foldr_cons, hid]
    exact ih fun n x hx => hh n x (List.mem_cons_of_mem e hx)

/-- A reload does not replace the records if a load that was begun before it ends after it: what this
load has read is there as well, when all have returned. -/
theorem not_reload_replaces : ¬ ∀ {path : String} {s : Service} {c : Clerks} {n : Nat}
    {after before : List Happening}, s.index = { path := path } → Reachable Demand.work s c →
    c.paused = [] → c.history = after ++ .begun n .reload :: before →
    (∀ m, .begun m .reload ∉ after) → .returned n .done ∈ after →
    ∃ later e earlier persisted, Settled after (n + 1) later e earlier persisted ∧
      c.state.index.data = edited (overlay persisted (edited ∅ earlier)) later := by
  intro h
  obtain ⟨c, hc, hd⟩ := exists_reachable (s := newService) rfl (moves_overtaken ∅ note)
  obtain ⟨later, e, earlier, persisted, hsettled, hdata⟩ := h rfl hc hd.paused hd.history
    (by simp [sinceOvertaken]) (by simp [sinceOvertaken])
  -- the reload itself has found no records
  have hpersisted : persisted = ∅ := by
    have hmem : e ∈ sinceOvertaken ∅ note := by simp [hsettled.split]
    simp only [sinceOvertaken, List.mem_cons, List.not_mem_nil, or_false] at hmem
    rcases hmem with rfl | rfl | rfl | rfl | rfl | rfl | rfl <;> cases hsettled.obtained
    exact decode_render ∅
  have hsilent : ∀ l ⊆ sinceOvertaken ∅ note, edited ∅ l = ∅ := fun l hl =>
    edited_of_silent (fun m x hx => by simpa [sinceOvertaken] using hl hx) ∅
  rw [hpersisted, hsilent earlier fun x hx => by simp [hsettled.split, hx],
    show overlay ∅ ∅ = (∅ : IndexData) from rfl, hsilent later fun x hx => by simp [hsettled.split, hx],
    hd.index] at hdata
  exact absurd (congrArg Table.size hdata) (by decide)

end SourceBundle.Index
