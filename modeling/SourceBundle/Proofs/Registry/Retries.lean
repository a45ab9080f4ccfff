/-
# How often a request is made

A request is made until it gets an answer with a status below 500, but at most as often as the settings say,
and at least once.  Between two attempts there is a delay, which doubles every time; there is none in front of
the first and none behind the last.

The power of two in a delay must fit into a floating-point number.  That of the 1025th delay does not, even if
the delay is zero: when this many attempts have failed, and there are more to come, the client does not give
up with a fault of the registry but stops with another one.
-/
import Mathlib.Data.Nat.Find
import SourceBundle.Proofs.Registry.Calls

namespace SourceBundle.Registry

variable {s : Settings} {x y : Exchange} {n : Network} {c : Connection} {address shown : String}
  {headers? : Option (List (String × String))} {replies : List Reply} {es : List Event} {a m left : Nat}

/-! ## The last attempt -/

/-- What comes of the request behind so many others, when these replies are to come. -/
def replyAt (replies : List Reply) (k : Nat) : Reply := replies.getD k Network.silence

/-- A reply behind which there is no further attempt: an answer with a status below 500. -/
def Reply.Settles (r : Reply) : Prop := ∃ status body, r = .answered status body ∧ status < 500

/-- The number of attempts: the first that is answered with a status below 500 is the last, or else the one
with which the limit of the settings is reached. -/
structure LastAttempt (s : Settings) (replies : List Reply) (m : Nat) : Prop where
  pos : 1 ≤ m
  le : (m : Int) ≤ max 1 s.retryMax
  failed : ∀ k, k + 1 < m → ¬ (replyAt replies k).Settles
  ends : (replyAt replies (m - 1)).Settles ∨ (m : Int) = max 1 s.retryMax

lemma exists_lastAttempt (s : Settings) (replies : List Reply) : ∃ m, LastAttempt s replies m := by
  classical
  by_cases h : ∃ k, ((k + 1 : Nat) : Int) ≤ max 1 s.retryMax ∧ (replyAt replies k).Settles
  · obtain ⟨hle, hsettles⟩ := Nat.find_spec h
    refine ⟨Nat.find h + 1, by omega, hle, fun k hk hk' => ?_, Or.inl hsettles⟩
    exact Nat.find_min h (Nat.lt_of_succ_lt_succ hk) ⟨by omega, hk'⟩
  · refine ⟨(max 1 s.retryMax).toNat, by omega, by omega, fun k hk hsettles => h ⟨k, ?_, hsettles⟩, ?_⟩
    · omega
    · exact Or.inr (by omega)

/-- What is given behind the last attempt: the status and the body of the answer, or a fault that names what
has failed. -/
def verdict (s : Settings) (shown : String) : Reply → Except Fault (Int × List UInt8)
  | .answered status body =>
    if status < 500 then .ok (status, body) else .error (exhausted s shown s!"HTTP {status}")
  | .timedOut => .error (exhausted s shown "timeout")
  | .broken reason => .error (exhausted s shown reason)

lemma outcome_of_settles (s : Settings) (shown : String) {r : Reply} (h : r.Settles) :
    ∃ answer, r.outcome = .ok answer ∧ verdict s shown r = .ok answer := by
  obtain ⟨status, body, rfl, hstatus⟩ := h
  exact ⟨(status, body), if_pos hstatus, if_pos hstatus⟩

lemma outcome_of_not_settles (s : Settings) (shown : String) {r : Reply} (h : ¬ r.Settles) :
    ∃ reason, r.outcome = .error reason ∧ verdict s shown r = .error (exhausted s shown reason) := by
  cases r with
  | answered status body =>
    have hstatus : ¬ status < 500 := fun hstatus => h ⟨status, body, rfl, hstatus⟩
    exact ⟨_, if_neg hstatus, if_neg hstatus⟩
  | timedOut => exact ⟨_, rfl, rfl⟩
  | broken reason => exact ⟨_, rfl, rfl⟩

/-! ## What happens -/

/-- The delay behind the attempt with this number. -/
def delayAfter (s : Settings) (k : Nat) : Float := s.retryDelay * Float.ofNat (Nat.pow 2 k)

/-- What happens in front of the attempt with this number. -/
def delayBefore (s : Settings) : Nat → List Event
  | 0 => []
  | k + 1 => [.delayed (delayAfter s k)]

/-- What happens in so many attempts to make a request. -/
def attemptEvents (s : Settings) (r : Request) (m : Nat) : List Event :=
  (List.range m).flatMap fun k => delayBefore s k ++ [.requested r]

lemma attemptEvents_succ (s : Settings) (r : Request) (m : Nat) :
    attemptEvents s r (m + 1) = attemptEvents s r m ++ delayBefore s m ++ [.requested r] := by
  simp [attemptEvents, List.range_succ]

lemma requests_attemptEvents (s : Settings) (r : Request) (m : Nat) :
    (attemptEvents s r m).filterMap Event.request? = List.replicate m r := by
  induction m with
  | zero => rfl
  | succ m ih =>
    have hdelay : (delayBefore s m).filterMap Event.request? = [] := by cases m <;> rfl
    rw [attemptEvents_succ, List.filterMap_append, List.filterMap_append, ih, hdelay,
      List.replicate_succ']
    simp [Event.request?]

lemma delays_attemptEvents (s : Settings) (r : Request) (m : Nat) :
    (attemptEvents s r m).filterMap Event.delay? = (List.range (m - 1)).map (delayAfter s) := by
  induction m with
  | zero => rfl
  | succ m ih =>
    rw [attemptEvents_succ, List.filterMap_append, List.filterMap_append, ih]
    cases m with
    | zero => rfl
    | succ m => simp [delayBefore, Event.delay?, List.range_succ]

/-- A request that is made so many times, with the delays between the attempts. -/
structure Attempted (s : Settings) (r : Request) (m : Nat) (x y : Exchange) : Prop where
  requests : y.network.requests = x.network.requests ++ List.replicate m r
  delays : y.network.delays = x.network.delays ++ (List.range (m - 1)).map (delayAfter s)
  events : y.network.events = (start.after x).network.events ++ attemptEvents s r m

/-! ## From one attempt to the next -/

/-- An exchange some time after another: so many replies have come, and the given events have happened. -/
structure Since (n : Network) (c : Connection) (a : Nat) (es : List Event) (y : Exchange) : Prop where
  replies : y.network.replies = n.replies.drop a
  events : y.network.events = n.events ++ es
  connection : y.client.connection? = some c

namespace Since

lemma send (h : Since n c a es y) (address : String) (headers? : Option (List (String × String))) :
    ∃ z, (send address headers?).exec y = (.ok (replyAt n.replies a), z) ∧
      Since n c (a + 1) (es ++ [.requested ⟨c, address, headers?⟩]) z := by
  have hreply : y.network.replies.headD Network.silence = replyAt n.replies a := by
    rw [h.replies, List.headD_eq_head?_getD, List.head?_drop, replyAt, List.getD_eq_getElem?_getD]
  refine ⟨(Registry.send address headers?).after y, ?_, ?_, ?_, h.connection⟩
  · rw [← hreply]
    rfl
  · change y.network.replies.drop 1 = _
    rw [h.replies, List.drop_drop]
  · change y.network.events ++ [.requested ⟨y.client.connection?.getD (.own 0), _, _⟩] = _
    rw [h.events, h.connection, List.append_assoc]
    rfl

lemma record (h : Since n c a es y) (l : LogRecord) :
    ∃ z, (record l).exec y = (.ok (), z) ∧ Since n c a es z :=
  ⟨_, rfl, h.replies, h.events, h.connection⟩

lemma wait (h : Since n c a es y) {k : Nat} (hk : k < 1024) :
    ∃ z, (wait s k).exec y = (.ok (), z) ∧ Since n c a (es ++ delayBefore s (k + 1)) z := by
  refine ⟨{ y with network := y.network.delay (delayAfter s k) }, ?_, h.replies, ?_, h.connection⟩
  · rw [Registry.wait, delay?, if_pos hk]
    rfl
  · simp [Network.delay, Network.note, h.events, delayBefore]

end Since

/-- There is no delay behind an attempt with so large a number. -/
lemma exec_wait_of_le (hk : 1024 ≤ a) (y : Exchange) : (wait s a).exec y = (.error .overflow, y) := by
  rw [wait, delay?, if_neg (Nat.not_lt.mpr hk)]
  rfl

/-- An attempt that settles the request gives what its reply tells. -/
lemma exec_tryFrom_settled (h : Since n c a (attemptEvents s ⟨c, address, headers?⟩ a ++ delayBefore s a) y)
    (hsettles : (replyAt n.replies a).Settles) (shown : String) (left : Nat) (reason : String) :
    ∃ z, (tryFrom s address shown headers? (left + 1) a reason).exec y =
        (verdict s shown (replyAt n.replies a), z) ∧
      Since n c (a + 1) (attemptEvents s ⟨c, address, headers?⟩ (a + 1)) z := by
  obtain ⟨y', hsend, hy'⟩ := h.send address headers?
  rw [← attemptEvents_succ] at hy'
  obtain ⟨answer, houtcome, hverdict⟩ := outcome_of_settles s shown hsettles
  obtain ⟨z, hrecord, hz⟩ := hy'.record (.responded shown answer.1 (a + 1))
  refine ⟨z, ?_, hz⟩
  rw [tryFrom, exec_bind, hsend]
  dsimp only
  rw [houtcome, hverdict, exec_bind, hrecord]
  rfl

/-- Behind any other attempt the client goes on with the fault that this one has given, and with a delay if
that is not the last one that the settings allow. -/
lemma exec_tryFrom_failed (h : Since n c a (attemptEvents s ⟨c, address, headers?⟩ a ++ delayBefore s a) y)
    (hfailed : ¬ (replyAt n.replies a).Settles) (shown : String) (left : Nat) (reason : String) :
    ∃ reason' z, (tryFrom s address shown headers? (left + 1) a reason).exec y =
        (if (a : Int) + 1 < s.retryMax then
            wait s a >>= fun _ => tryFrom s address shown headers? left (a + 1) reason'
          else tryFrom s address shown headers? left (a + 1) reason').exec z ∧
      verdict s shown (replyAt n.replies a) = .error (exhausted s shown reason') ∧
      Since n c (a + 1) (attemptEvents s ⟨c, address, headers?⟩ (a + 1)) z := by
  obtain ⟨y', hsend, hy'⟩ := h.send address headers?
  rw [← attemptEvents_succ] at hy'
  obtain ⟨reason', houtcome, hverdict⟩ := outcome_of_not_settles s shown hfailed
  obtain ⟨z, hrecord, hz⟩ := hy'.record (.attemptFailed shown reason' (a + 1))
  refine ⟨reason', z, ?_, hverdict, hz⟩
  rw [tryFrom, exec_bind, hsend]
  dsimp only
  rw [houtcome, exec_bind, hrecord]

/-- From any attempt on, the client comes to the last one, or else to the first delay that there is not. -/
theorem exec_tryFrom (address shown : String) (headers? : Option (List (String × String)))
    (hm : LastAttempt s n.replies m) (hleft : a + left = attempts s) (ha : a < m) (hdelay : a ≤ 1024)
    (reason : String)
    (h : Since n c a (attemptEvents s ⟨c, address, headers?⟩ a ++ delayBefore s a) y) :
    ∃ z, (tryFrom s address shown headers? left a reason).exec y =
        (if m ≤ 1025 then verdict s shown (replyAt n.replies (m - 1)) else .error .overflow, z) ∧
      Since n c (min m 1025) (attemptEvents s ⟨c, address, headers?⟩ (min m 1025)) z := by
  have hle := hm.le
  unfold attempts at hleft
  induction left generalizing a reason y with
  | zero => omega
  | succ left ih =>
    by_cases hsettles : (replyAt n.replies a).Settles
    · -- nothing but the last attempt is answered with a status below 500
      obtain rfl : a + 1 = m := by
        by_contra hne
        exact hm.failed a (by omega) hsettles
      obtain ⟨z, hexec, hz⟩ := exec_tryFrom_settled h hsettles shown left reason
      refine ⟨z, ?_, by rwa [Nat.min_eq_left (by omega)]⟩
      rw [hexec, if_pos (by omega), Nat.add_sub_cancel]
    · obtain ⟨reason', z, hexec, hverdict, hz⟩ := exec_tryFrom_failed h hsettles shown left reason
      rw [hexec]
      by_cases hlast : a + 1 = m
      · -- there is neither a delay nor another attempt behind the last one
        subst hlast
        have hlimit : ((a + 1 : Nat) : Int) = max 1 s.retryMax := hm.ends.resolve_left hsettles
        obtain rfl : left = 0 := by omega
        refine ⟨z, ?_, by rwa [Nat.min_eq_left (by omega)]⟩
        rw [if_neg (by omega), if_pos (by omega), Nat.add_sub_cancel, hverdict]
        rfl
      · rw [if_pos (by omega), exec_bind]
        by_cases hlt : a < 1024
        · obtain ⟨y', hwait, hy'⟩ := hz.wait (s := s) hlt
          rw [hwait]
          exact ih (by omega) (by omega) hlt reason' hy'
        · obtain rfl : a = 1024 := by omega
          refine ⟨z, ?_, by rwa [Nat.min_eq_right (by omega)]⟩
          rw [exec_wait_of_le (le_refl 1024), if_neg (by omega)]

/-! ## The whole request -/

/-- At first the client has a connection, and no reply has come. -/
lemma since_start (x : Exchange) : ∃ c, Since (start.after x).network c 0 [] (start.after x) ∧
    (start.after x).network.replies = x.network.replies ∧
    (start.after x).network.requests = x.network.requests ∧
    (start.after x).network.delays = x.network.delays := by
  cases h : x.client.connection? with
  | some c =>
    rw [after_start_of_some h]
    exact ⟨c, ⟨rfl, (List.append_nil _).symm, h⟩, rfl, rfl, rfl⟩
  | none =>
    rw [after_start_of_none h]
    refine ⟨_, ⟨rfl, (List.append_nil _).symm, rfl⟩, rfl, ?_, ?_⟩
    · simp [Network.requests, Network.note, Event.request?]
    · simp [Network.delays, Network.note, Event.delay?]

lemma Attempted.of_since
    (h : Since (start.after x).network c a (attemptEvents s ⟨c, address, headers?⟩ m) y)
    (hrequests : (start.after x).network.requests = x.network.requests)
    (hdelays : (start.after x).network.delays = x.network.delays) :
    Attempted s ⟨c, address, headers?⟩ m x y := by
  refine ⟨?_, ?_, h.events⟩
  · rw [Network.requests, h.events, List.filterMap_append, requests_attemptEvents, ← hrequests,
      Network.requests]
  · rw [Network.delays, h.events, List.filterMap_append, delays_attemptEvents, ← hdelays, Network.delays]

/-- A request is made up to the last attempt, or up to the first delay that there is not. -/
theorem exec_get (x : Exchange) (headers? : Option (List (String × String)))
    (hshown : Url.safe address = .ok shown) :
    ∃ c y, (start.after x).client.connection? = some c ∧
      ∀ m, LastAttempt s x.network.replies m →
        (get s address headers?).exec x =
          (if m ≤ 1025 then verdict s shown (replyAt x.network.replies (m - 1)) else .error .overflow, y) ∧
        Attempted s ⟨c, address, headers?⟩ (min m 1025) x y := by
  obtain ⟨c, hstart, hreplies, hrequests, hdelays⟩ := since_start x
  refine ⟨c, (get s address headers?).after x, hstart.connection, fun m hm => ?_⟩
  have hget : (get s address headers?).exec x =
      (tryFrom s address shown headers? (attempts s) 0 "no attempt made").exec (start.after x) := by
    rw [get, exec_bind, hshown]
    rfl
  rw [← hreplies] at hm
  obtain ⟨z, htry, hz⟩ := exec_tryFrom address shown headers? hm (Nat.zero_add _) hm.pos (Nat.zero_le _)
    "no attempt made" hstart
  rw [Calls.after, hget, htry, hreplies]
  exact ⟨rfl, .of_since hz hrequests hdelays⟩

/-- **Retries.**  For every address that can be logged, every limit and every script of replies: a request is
made up to the last attempt, with doubling delays in between, and gives what the last reply tells, exactly if
there are at most 1025 attempts.  If there are more, the client makes 1025 of them and stops with another
fault, since there is no such delay as the next one. -/
theorem get_exact_iff (s : Settings) (x : Exchange) (address shown : String)
    (headers? : Option (List (String × String))) (hshown : Url.safe address = .ok shown) :
    ∃ c m, (start.after x).client.connection? = some c ∧ LastAttempt s x.network.replies m ∧
      (Attempted s ⟨c, address, headers?⟩ m x ((get s address headers?).after x) ∧
        ((get s address headers?).exec x).1 = verdict s shown (replyAt x.network.replies (m - 1)) ↔
          m ≤ 1025) ∧
      (1025 < m → Attempted s ⟨c, address, headers?⟩ 1025 x ((get s address headers?).after x) ∧
        ((get s address headers?).exec x).1 = .error .overflow) := by
  obtain ⟨c, y, hc, hget⟩ := exec_get (s := s) x headers? hshown
  obtain ⟨m, hm⟩ := exists_lastAttempt s x.network.replies
  obtain ⟨hexec, hattempted⟩ := hget m hm
  refine ⟨c, m, hc, hm, ?_⟩
  rw [Calls.after, hexec]
  by_cases hle : m ≤ 1025
  · rw [if_pos hle]
    rw [Nat.min_eq_left hle] at hattempted
    exact ⟨iff_of_true ⟨hattempted, rfl⟩ hle, fun hlt => absurd hle (Nat.not_le.mpr hlt)⟩
  · rw [if_neg hle]
    rw [Nat.min_eq_right (Nat.le_of_not_le hle)] at hattempted
    refine ⟨iff_of_false (fun h => ?_) hle, fun _ => ⟨hattempted, rfl⟩⟩
    -- the numbers of requests tell the two apart
    have hcount := congrArg List.length (hattempted.requests.symm.trans h.1.requests)
    simp only [List.length_append, List.length_replicate] at hcount
    omega

/-- An address that is logged as it is. -/
lemma safe_address : Url.safe "https://registry.npmjs.org/x" = .ok "https://registry.npmjs.org/x" := rfl

/-- A client whose first request is not answered in time, and whose second one is answered in the negative. -/
def answeredSecond : Exchange :=
  ⟨Client.new {} none none false, { replies := [.timedOut, .answered 404 []] }⟩

/-- The request is made twice. -/
theorem get_exact_iff_second :
    Url.safe "https://registry.npmjs.org/x" = .ok "https://registry.npmjs.org/x" ∧
      ((get {} "https://registry.npmjs.org/x" none).exec answeredSecond).1 = .ok (404, []) ∧
      ((get {} "https://registry.npmjs.org/x" none).after answeredSecond).network.delays =
        [delayAfter {} 0] := by
  obtain ⟨c, m, -, hm, hexact, -⟩ := get_exact_iff {} answeredSecond _ _ none safe_address
  have hfirst : ¬ (replyAt answeredSecond.network.replies 0).Settles := by
    rintro ⟨status, body, hreply, -⟩
    exact absurd hreply nofun
  obtain rfl : m = 2 := by
    by_contra hne
    rcases Nat.lt_or_gt_of_ne hne with hlt | hgt
    · obtain rfl : m = 1 := Nat.le_antisymm (by omega) hm.pos
      exact hm.ends.elim hfirst (by decide)
    · exact hm.failed 1 hgt ⟨404, [], rfl, by decide⟩
  obtain ⟨hattempted, hresult⟩ := hexact.mpr (by decide)
  exact ⟨safe_address, hresult, hattempted.delays⟩

/-- A client that is to try 1026 times, and gets no answer. -/
def unanswered : Settings × Exchange :=
  let s : Settings := { retryMax := 1026, retryDelay := 0 }
  (s, ⟨Client.new s none none false, { replies := [] }⟩)

/-- Behind 1025 attempts that have all failed the client should make another one, and if that fails, too, give
up with a fault of the registry.  It stops with another one. -/
theorem not_get_exact :
    ((get unanswered.1 "https://registry.npmjs.org/x" none).exec unanswered.2).1 = .error .overflow ∧
      ((get unanswered.1 "https://registry.npmjs.org/x" none).after unanswered.2).network.requests.length =
        1025 ∧
      ∀ m, LastAttempt unanswered.1 [] m → m = 1026 ∧
        verdict unanswered.1 "https://registry.npmjs.org/x" (replyAt [] (m - 1)) =
          .error (exhausted unanswered.1 "https://registry.npmjs.org/x" "no more responses") := by
  have hsilent : ∀ k, ¬ (replyAt [] k).Settles := by
    rintro k ⟨status, body, hreply, -⟩
    exact absurd hreply nofun
  have hlast : ∀ m, LastAttempt unanswered.1 [] m → m = 1026 := fun m hm => by
    have hlimit := hm.ends.resolve_left (hsilent _)
    change (m : Int) = max 1 1026 at hlimit
    omega
  obtain ⟨c, y, -, hget⟩ := exec_get (s := unanswered.1) unanswered.2 none safe_address
  obtain ⟨m, hm⟩ := exists_lastAttempt unanswered.1 []
  obtain ⟨hexec, hattempted⟩ := hget m hm
  have hover : ¬ m ≤ 1025 := by
    have := hlast m hm
    omega
  rw [if_neg hover] at hexec
  rw [Nat.min_eq_right (Nat.le_of_not_le hover)] at hattempted
  refine ⟨by rw [hexec], ?_, fun m' hm' => ⟨hlast m' hm', rfl⟩⟩
  rw [Calls.after, hexec, hattempted.requests, List.length_append, List.length_replicate]
  rfl

end SourceBundle.Registry
