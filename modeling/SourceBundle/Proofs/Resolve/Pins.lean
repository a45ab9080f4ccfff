/-
# Pinned imports do not interfere

Versions are chosen for a series of requests, whose registry answers by a catalogue.  An import that
names a version or a range is pinned; the others leave the version of their package open.  What comes
of the open ones, and the versions that are kept, are the same without the pinned ones: the kept
versions hang on the open requests alone, and what the registry has said before agrees with what it
would say again.
-/
import SourceBundle.Proofs.Resolve.Offers

namespace SourceBundle.Resolve

open SourceBundle.Import

variable {reg : Catalogue} {r r' u : Resolver} {ref : PackageReference} {range name : String}
  {parent? : Option PackageKey} {talk : Talk Question Question.Answer}

/-! ## Pinned versions -/

/-- What is offered for an import that names a range. -/
def pinOffer (reg : Catalogue) (r : Resolver) (ref : PackageReference) (range : String) :
    Offer ResolvedVersion :=
  if Version.isExact range then .just ⟨range, .explicit, some range⟩
  else
    match r.pins.get? (ref.fullName, range) with
    | some v => .just ⟨v, .explicit, some range⟩
    | none => (pickOffer reg ref range).andThen fun
      | .error reason => .fault (.resolution (.pin ref range reason))
      | .ok v => .just ⟨v, .explicit, some range⟩

-- The lemmas hold whatever counts as an exact version, and nothing should try to evaluate it.
attribute [local irreducible] Version.isExact

lemma offers_resolvePin (hr : Heard reg r) :
    Offers reg (resolvePin ref range) r (pinOffer reg r ref range) := by
  rw [resolvePin, pinOffer]
  by_cases he : Version.isExact range = true
  · rw [if_pos he, if_pos he]
    exact offers_just hr _
  · rw [if_neg he, if_neg he]
    refine offers_get ?_
    cases r.pins.get? (ref.fullName, range) with
    | some v => exact offers_just hr _
    | none =>
      refine offers_bind (offers_pick hr range) ?_
      intro choice u _ _ hu
      cases choice with
      | error reason => exact offers_fault hu _
      | ok v =>
        refine Run.Gives.modify_bind (Run.Gives.pure ⟨⟨rfl, rfl, rfl, rfl⟩, hu, rfl, fun _ => rfl, ?_⟩)
        intro name
        simp [remembered]

/-! ## Single requests -/

/-- A request for the version of a package. -/
structure Request where
  /-- The package. -/
  ref : PackageReference
  /-- The package whose file imports it, if any. -/
  parent? : Option PackageKey

/-- What comes of a request: its outcome, and what is remembered after it. -/
abbrev Reply := Except Fault ResolvedVersion × Resolver

namespace Request

/-- What is offered for a request. -/
def offer (reg : Catalogue) (r : Resolver) (c : Request) : Offer ResolvedVersion :=
  if c.ref.isOpen then openOffer reg r c.ref c.parent? else pinOffer reg r c.ref (c.ref.version?.getD "")

/-- The versions that are kept after the outcome of a request. -/
def keeping (session : Table String String) (c : Request) (out : Except Fault ResolvedVersion) :
    Table String String :=
  if c.ref.isOpen then kept session c.ref.fullName out else session

end Request

/-- A request is met. -/
structure Meets (reg : Catalogue) (c : Request) (r : Resolver)
    (talk : Talk Question Question.Answer) (p : Reply) : Prop where
  outcome : p.1 = (c.offer reg r).outcome
  manifest : p.2.manifest? = r.manifest?
  lockfile : p.2.lockfile = r.lockfile
  parents : p.2.parents = r.parents
  session : p.2.session = c.keeping r.session p.1
  heard : Heard reg p.2
  once : ∀ name, talk.countP (answered name) + remembered r name ≤ remembered p.2 name

lemma resolve_of_pinned (hn : ref.isOpen = false) :
    resolve ref parent? = resolvePin ref (ref.version?.getD "") := by
  rw [PackageReference.isOpen] at hn
  rw [resolve]
  cases hv : ref.version? with
  | none => simp [hv] at hn
  | some range =>
    rw [hv] at hn
    exact if_neg (by simpa using hn)

/-- Every way to choose a version meets the request. -/
lemma says_resolve (hr : Heard reg r) (c : Request) :
    ((resolve c.ref c.parent?).run r).Says (byCatalogue reg) fun talk p => Meets reg c r talk p := by
  by_cases ho : c.ref.isOpen = true
  · rw [resolve_of_open ho]
    refine Routine.Says.imp (gives_resolveUnpinned hr) ?_
    rintro talk ⟨out, r'⟩ ⟨hout, u, hu, rfl⟩
    refine ⟨?_, hu.alike.manifest, hu.alike.lockfile, hu.alike.parents, ?_, hu.heard, hu.once⟩
    · rw [hout, Request.offer, if_pos ho]
    · rw [Request.keeping, if_pos ho, hout]
  · have hn : c.ref.isOpen = false := by simpa using ho
    rw [resolve_of_pinned hn]
    refine Routine.Says.imp (offers_resolvePin hr) ?_
    rintro talk ⟨out, r'⟩ ⟨hout, hu⟩
    refine ⟨?_, hu.alike.manifest, hu.alike.lockfile, hu.alike.parents, ?_, hu.heard, hu.once⟩
    · rw [hout, Request.offer, if_neg ho]
    · rw [Request.keeping, if_neg ho, hu.alike.session]

/-! ## Series of requests -/

/-- Choose versions for requests one after the other, whatever comes of each. -/
def resolveAll : List Request → Resolver → Work (List Reply)
  | [], _ => .done []
  | c :: cs, r =>
    ((resolve c.ref c.parent?).run r).bind fun p =>
      (resolveAll cs p.2).bind fun ps => .done (p :: ps)

/-- A series of requests can lead a conversation with a registry that answers by a catalogue, and have
the given replies, whatever others do meanwhile. -/
def Answers (reg : Catalogue) (cs : List Request) (r : Resolver)
    (talk : Talk Question Question.Answer) (ps : List Reply) : Prop :=
  ∃ (T : Terms Service Question Question.Answer) (s s' : Service),
    (∀ q a, T.answer q a → byCatalogue reg q a) ∧ (resolveAll cs r).Converses T s talk ps s'

/-- Every request of a series is met, after those before it. -/
inductive Served (reg : Catalogue) :
    List Request → Resolver → Talk Question Question.Answer → List Reply → Prop
  | nil {r : Resolver} : Served reg [] r [] []
  | cons {c : Request} {cs : List Request} {r : Resolver}
      {talk more : Talk Question Question.Answer} {p : Reply} {ps : List Reply} :
      Meets reg c r talk p → Served reg cs p.2 more ps → Served reg (c :: cs) r (talk ++ more) (p :: ps)

variable {c : Request} {cs : List Request} {p : Reply} {ps ps' : List Reply}

/-- In every way to choose versions for a series, every request is met. -/
lemma says_resolveAll (hr : Heard reg r) (cs : List Request) :
    (resolveAll cs r).Says (byCatalogue reg) fun talk ps => Served reg cs r talk ps := by
  induction cs generalizing r with
  | nil => exact .nil
  | cons c cs ih =>
    refine Routine.Says.bind (says_resolve hr c) ?_
    intro talk p hp
    refine Routine.Says.bind (ih hp.heard) ?_
    intro more ps hps
    rw [Routine.Says, List.append_nil]
    exact .cons hp hps

lemma served_of_answers (hr : Heard reg r) (h : Answers reg cs r talk ps) :
    Served reg cs r talk ps := by
  obtain ⟨T, s, s', hT, hwalk⟩ := h
  exact (says_resolveAll hr cs).converses hT hwalk

/-- Every series of requests comes to an end. -/
lemma exists_answers (reg : Catalogue) (cs : List Request) (r : Resolver) (s : Service) :
    ∃ talk ps s', (resolveAll cs r).Converses (.answering (byCatalogue reg)) s talk ps s' :=
  Routine.exists_converses (exists_answer reg) (resolveAll cs r) s

/-! ## What is kept -/

lemma openOffer_congr (h : Alike r u) :
    openOffer reg u ref parent? = openOffer reg r ref parent? := by
  rw [openOffer, openOffer, conflictOffer, conflictOffer, requirements, requirements, h.parents,
    h.session, freshOffer_congr h]

lemma get?_kept {session : Table String String} {v : String} (h : session.get? name = some v)
    (other : String) (out : Except Fault ResolvedVersion) :
    (kept session other out).get? name = some v := by
  cases out with
  | error f => exact h
  | ok w =>
    rw [kept]
    by_cases hname : other = name
    · subst hname
      rw [insertNew_of_get? h, h]
    · cases hother : session.get? other with
      | some x => rw [insertNew_of_get? hother, h]
      | none => rw [insertNew_of_none hother, Table.get?_insert_ne _ hname, h]

namespace Meets

variable {v : ResolvedVersion}

/-- What is kept stays. -/
lemma get?_session {version : String} (h : Meets reg c r talk p)
    (hv : r.session.get? name = some version) : p.2.session.get? name = some version := by
  rw [h.session, Request.keeping]
  split
  · exact get?_kept hv _ _
  · exact hv

/-- An open version that is kept is the one that is given. -/
lemma version_of_kept {version : String} (h : Meets reg c r talk p) (ho : c.ref.isOpen = true)
    (hkept : r.session.get? c.ref.fullName = some version) (hv : p.1 = .ok v) :
    v.version = version := by
  rw [h.outcome, Request.offer, if_pos ho, openOffer_of_kept hkept] at hv
  rw [← Except.ok.inj hv]

/-- An open version that is given is kept. -/
lemma keeps (h : Meets reg c r talk p) (ho : c.ref.isOpen = true) (hv : p.1 = .ok v) :
    p.2.session.get? c.ref.fullName = some v.version := by
  cases hkept : r.session.get? c.ref.fullName with
  | some version =>
    rw [h.version_of_kept ho hkept hv]
    exact h.get?_session hkept
  | none =>
    rw [h.session, Request.keeping, if_pos ho, hv, kept, insertNew_of_none hkept,
      Table.get?_insert_self]

/-- A request that fails leaves the kept versions alone. -/
lemma session_of_error {f : Fault} (h : Meets reg c r talk p) (hf : p.1 = .error f) :
    p.2.session = r.session := by
  rw [h.session, Request.keeping, hf]
  split <;> rfl

/-- A request that names a version or a range leaves the kept versions alone. -/
lemma session_of_pinned (h : Meets reg c r talk p) (hn : ¬ c.ref.isOpen = true) :
    p.2.session = r.session := by
  rw [h.session, Request.keeping, if_neg hn]

/-- Resolvers that are alike give the same reply to an open request, and are alike after it. -/
lemma same {r₂ : Resolver} {talk₂ : Talk Question Question.Answer} {p₂ : Reply}
    (h : Meets reg c r talk p) (h₂ : Meets reg c r₂ talk₂ p₂) (hlike : Alike r r₂)
    (ho : c.ref.isOpen = true) : p₂.1 = p.1 ∧ Alike p.2 p₂.2 := by
  have hout : p₂.1 = p.1 := by
    rw [h₂.outcome, h.outcome, Request.offer, Request.offer, if_pos ho, if_pos ho,
      openOffer_congr hlike]
  refine ⟨hout, ?_, ?_, ?_, ?_⟩
  · rw [h₂.manifest, h.manifest, hlike.manifest]
  · rw [h₂.lockfile, h.lockfile, hlike.lockfile]
  · rw [h₂.parents, h.parents, hlike.parents]
  · rw [h₂.session, h.session, hout, hlike.session]

end Meets

namespace Served

lemma length (h : Served reg cs r talk ps) : ps.length = cs.length := by
  induction h with
  | nil => rfl
  | cons _ _ ih => rw [List.length_cons, List.length_cons, ih]

/-- A version that is kept is given to all open requests for its package. -/
lemma version_of_kept {version : String} (h : Served reg cs r talk ps)
    (hkept : r.session.get? name = some version) {x : Request × Reply} (hx : x ∈ cs.zip ps)
    (ho : x.1.ref.isOpen = true) (hname : x.1.ref.fullName = name) {v : ResolvedVersion}
    (hv : x.2.1 = .ok v) : v.version = version := by
  induction h with
  | nil => exact nomatch hx
  | cons hp _ ih =>
    rcases List.mem_cons.mp hx with rfl | hx
    · subst hname
      exact hp.version_of_kept ho hkept hv
    · exact ih (hp.get?_session hkept) hx

/-- Open requests for one package that succeed get the same version. -/
lemma version_unique (h : Served reg cs r talk ps) {x y : Request × Reply} (hx : x ∈ cs.zip ps)
    (hy : y ∈ cs.zip ps) (hox : x.1.ref.isOpen = true) (hoy : y.1.ref.isOpen = true)
    (hname : x.1.ref.fullName = y.1.ref.fullName) {v w : ResolvedVersion} (hv : x.2.1 = .ok v)
    (hw : y.2.1 = .ok w) : v.version = w.version := by
  induction h with
  | nil => exact nomatch hx
  | cons hp hrest ih =>
    -- the first of the two requests keeps the version that the second gets
    rcases List.mem_cons.mp hx with rfl | hx
    · rcases List.mem_cons.mp hy with rfl | hy
      · rw [Except.ok.inj (hv.symm.trans hw)]
      · exact (hrest.version_of_kept (hp.keeps hox hv) hy hoy hname.symm hw).symm
    · rcases List.mem_cons.mp hy with rfl | hy
      · exact hrest.version_of_kept (hp.keeps hoy hw) hx hox hname hv
      · exact ih hx hy

/-- A request that fails leaves the kept versions as they were after the one before it. -/
lemma session_of_error (h : Served reg cs r talk ps) {x : Resolver × Reply}
    (hx : x ∈ (r :: ps.map Prod.snd).zip ps) {f : Fault} (hf : x.2.1 = .error f) :
    x.2.2.session = x.1.session := by
  induction h with
  | nil => exact nomatch hx
  | cons hp _ ih =>
    rcases List.mem_cons.mp hx with rfl | hx
    · exact hp.session_of_error hf
    · exact ih hx

/-- The registry answers with the versions of a package only while none are remembered. -/
lemma once (h : Served reg cs r talk ps) (name : String) :
    talk.countP (answered name) + remembered r name ≤ 1 := by
  induction h with
  | @nil r =>
    have hle := remembered_le_one r name
    simpa using hle
  | @cons c cs r talk more p ps hp _ ih =>
    have honce := hp.once name
    rw [List.countP_append]
    omega

end Served

/-- The outcomes of the open requests of a series, with the versions that are kept after each. -/
def openReplies (cs : List Request) (ps : List Reply) :
    List (Except Fault ResolvedVersion × Table String String) :=
  ((cs.zip ps).filter fun x => x.1.ref.isOpen).map fun x => (x.2.1, x.2.2.session)

/-- The open requests of a series fare as they do alone. -/
lemma openReplies_alone {r₂ : Resolver} {talk₂ : Talk Question Question.Answer}
    (h : Served reg cs r talk ps) (hlike : Alike r r₂)
    (h₂ : Served reg (cs.filter (·.ref.isOpen)) r₂ talk₂ ps') :
    openReplies cs ps = ps'.map fun p => (p.1, p.2.session) := by
  induction h generalizing r₂ talk₂ ps' with
  | nil =>
    cases h₂
    rfl
  | @cons c cs r talk more p ps hp _ ih =>
    by_cases ho : c.ref.isOpen = true
    · rw [List.filter_cons_of_pos (by simpa using ho)] at h₂
      cases h₂ with
      | @cons _ _ _ talk₂ more₂ p₂ ps₂ hp₂ hrest₂ =>
        obtain ⟨hout, halike⟩ := hp.same hp₂ hlike ho
        have htail := ih halike hrest₂
        rw [openReplies] at htail ⊢
        rw [List.zip_cons_cons, List.filter_cons_of_pos (by simpa using ho), List.map_cons,
          List.map_cons, htail, hout, halike.session]
    · rw [List.filter_cons_of_neg (by simpa using ho)] at h₂
      have halike : Alike p.2 r₂ := by
        refine ⟨?_, ?_, ?_, ?_⟩
        · rw [hp.manifest, hlike.manifest]
        · rw [hp.lockfile, hlike.lockfile]
        · rw [hp.parents, hlike.parents]
        · rw [hp.session_of_pinned ho, hlike.session]
      have htail := ih halike h₂
      rw [openReplies] at htail ⊢
      rw [List.zip_cons_cons, List.filter_cons_of_neg (by simpa using ho), htail]

/-- **Pins do not interfere.**  Let the registry answer by a catalogue, and begin with any manifest,
lockfile, declarations and kept versions, but nothing remembered of the registry.  Every series of
requests comes to an end, and in whatever way it does: without the requests that name a version or a
range, the outcomes of the others and the versions that are kept after each are the same; open requests
for one package that succeed get the same version; a request that fails leaves the kept versions alone;
and the registry answers with the versions of a package at most once. -/
theorem pins_do_not_interfere (reg : Catalogue) {r : Resolver} (hr : r.published = ∅)
    (cs : List Request) :
    (∀ s, ∃ talk ps s', (resolveAll cs r).Converses (.answering (byCatalogue reg)) s talk ps s') ∧
    ∀ talk ps, Answers reg cs r talk ps →
      ps.length = cs.length ∧
      (∀ talk' ps', Answers reg (cs.filter (·.ref.isOpen)) r talk' ps' →
        openReplies cs ps = ps'.map fun p => (p.1, p.2.session)) ∧
      (∀ x ∈ cs.zip ps, ∀ y ∈ cs.zip ps, x.1.ref.isOpen = true → y.1.ref.isOpen = true →
        x.1.ref.fullName = y.1.ref.fullName →
        ∀ v w, x.2.1 = .ok v → y.2.1 = .ok w → v.version = w.version) ∧
      (∀ x ∈ (r :: ps.map Prod.snd).zip ps, ∀ f, x.2.1 = .error f →
        x.2.2.session = x.1.session) ∧
      ∀ name, talk.countP (answered name) ≤ 1 := by
  have hheard : Heard reg r := by
    intro name versions hv
    rw [hr] at hv
    exact nomatch hv
  refine ⟨exists_answers reg cs r, ?_⟩
  intro talk ps hps
  have hserved := served_of_answers hheard hps
  refine ⟨hserved.length, ?_, ?_, ?_, ?_⟩
  · intro talk' ps' hps'
    exact openReplies_alone hserved (.refl r) (served_of_answers hheard hps')
  · intro x hx y hy hox hoy hname v w hv hw
    exact hserved.version_unique hx hy hox hoy hname hv hw
  · intro x hx f hf
    exact hserved.session_of_error hx hf
  · intro name
    have honce := hserved.once name
    omega

/-- Nothing is declared, and nothing has been chosen. -/
def blankResolver : Resolver := ⟨none, ∅, {}, ∅, ∅, ∅, ∅⟩

/-- A request for the version of a package that a range names, or for any version. -/
def request (range? : Option String) : Request := ⟨⟨none, "p", range?, "x.sol"⟩, none⟩

/-- After a request for an old version, an open one fares as it does alone. -/
theorem pins_do_not_interfere_pair :
    blankResolver.published = ∅ ∧
      (∀ s, ∃ talk ps s', (resolveAll [request "^1.0.0", request none] blankResolver).Converses
        (.answering (byCatalogue pairCatalogue)) s talk ps s') ∧
      ∀ talk ps, Answers pairCatalogue [request "^1.0.0", request none] blankResolver talk ps →
        talk.countP (answered "p") ≤ 1 ∧
          ∀ talk' ps', Answers pairCatalogue [request none] blankResolver talk' ps' →
            openReplies [request "^1.0.0", request none] ps = ps'.map fun p => (p.1, p.2.session) := by
  obtain ⟨hends, hall⟩ :=
    pins_do_not_interfere pairCatalogue (r := blankResolver) rfl [request "^1.0.0", request none]
  refine ⟨rfl, hends, ?_⟩
  intro talk ps hps
  obtain ⟨-, halone, -, -, honce⟩ := hall talk ps hps
  exact ⟨honce "p", halone⟩

end SourceBundle.Resolve
