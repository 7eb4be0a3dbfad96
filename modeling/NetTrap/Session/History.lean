import NetTrap.Session.Tracker

/-! Histories of the session tracker.
What one operation does to the stored sessions is said once, by `Step`. The bound on their
number, the counters of a session and its liveness follow for every history.
-/

namespace NetTrap.Session

open Rust HashMap SessionTracker List Option

/-- The traffic that a session accounts for. -/
structure Counters where
  (received sent packets : Nat)
  deriving DecidableEq, Repr

def Counters.zero : Counters :=
  ⟨0, 0, 0⟩

/-- Accounts for one packet with its bytes received and sent. -/
def Counters.add (counters : Counters) (update : Nat × Nat) : Counters :=
  ⟨saturatingAdd counters.received update.1, saturatingAdd counters.sent update.2,
    saturatingAdd counters.packets 1⟩

def SessionInfo.counters (info : SessionInfo) : Counters :=
  ⟨info.bytesReceived, info.bytesSent, info.packets⟩

/-- Adding updates one by one gives their sums, cut off at the largest counter. -/
theorem foldl_add_zero (updates : List (Nat × Nat))
    : updates.foldl Counters.add .zero
      = ⟨min (updates.map Prod.fst).sum u64Max, min (updates.map Prod.snd).sum u64Max,
          min updates.length u64Max⟩ := by
  induction updates using reverseRecOn with
  | nil => rfl
  | append_singleton updates update ih =>
    rw [foldl_append, ih]
    simp only [foldl_cons, foldl_nil, Counters.add, saturatingAdd, map_append,
      sum_append, map_cons, map_nil, sum_cons, sum_nil,
      length_append, length_cons, length_nil, Counters.mk.injEq]
    refine ⟨?_, ?_, ?_⟩ <;> omega

namespace Operation

/-- The key of the session that an operation is addressed to. -/
def key : Operation → Option SessionKey
  | .register _ _ _ src destination _ protocol => some (sessionKey src destination protocol)
  | .updateBytes _ src protocol destination _ _ => some (sessionKey src destination protocol)
  | .setProcess _ src protocol destination _ _ => some (sessionKey src destination protocol)
  | .remove src protocol destination => some (sessionKey src destination protocol)
  | .getProcess _ src protocol destination => some (sessionKey src destination protocol)
  | .getOriginalDest _ src protocol destination => some (sessionKey src destination protocol)
  | .cleanup .. | .getDestinationForPort .. | .activeCount _ => none

/-- The instants at which an operation looks for expired sessions. -/
def readings : Operation → List Nat
  | .register clock .. => [clock.now, clock.cleanup]
  | .updateBytes now .. | .cleanup now _ | .setProcess now .. | .getProcess now ..
  | .getOriginalDest now .. | .getDestinationForPort now .. | .activeCount now => [now]
  | .remove .. => []

/-- The instant at which an operation uses a session. -/
def now : Operation → Nat
  | .register clock .. => clock.now
  | .updateBytes now .. | .cleanup now _ | .setProcess now .. | .getProcess now ..
  | .getOriginalDest now .. | .getDestinationForPort now .. | .activeCount now => now
  | .remove .. => 0

/-- The operation registers a new session of the key. -/
def registersNew (tracker : SessionTracker) (key : SessionKey) : Operation → Bool
  | .register clock order startedAt src destination listener protocol =>
    sessionKey src destination protocol = key
      && (tracker.register clock order startedAt src destination listener protocol).2
  | _ => false

/-- The operation removes the session of the key on request. -/
def removes (key : SessionKey) : Operation → Bool
  | .remove src protocol destination => sessionKey src destination protocol = key
  | _ => false

/-- The operation is activity of the session of the key. -/
def touches (key : SessionKey) : Operation → Bool
  | .register _ _ _ src destination _ protocol | .updateBytes _ src protocol destination _ _ =>
    sessionKey src destination protocol = key
  | _ => false

/-- The traffic that an operation reports for the key. -/
def updatesOf (key : SessionKey) : Operation → List (Nat × Nat)
  | .updateBytes _ src protocol destination received sent =>
    if sessionKey src destination protocol = key then [(received, sent)] else []
  | _ => []

theorem updatesOf_of_touches {key : SessionKey} {op : Operation} (quiet : op.touches key = false)
    : op.updatesOf key = [] := by
  cases op with
  | updateBytes now src protocol destination received sent =>
      exact if_neg (of_decide_eq_false quiet)
  | _ => rfl

end Operation

/-- A session is evicted for the new one of the key `created`: the tracker is full, and no
session that stays was active less recently. -/
structure Evicted (before after : SessionTracker) (created : SessionKey) (info : SessionInfo)
    : Prop where
  limited : 0 < before.maxSessions
  full : before.maxSessions ≤ before.sessions.len
  oldest : ∀ key other, key ≠ created → after.sessions.get key = some other →
    info.lastActivity ≤ other.lastActivity

/-- What an operation does to the sessions. -/
structure Step (before : SessionTracker) (op : Operation) (after : SessionTracker) : Prop where
  sameTtl : after.sessionTtlSecs = before.sessionTtlSecs
  sameLimit : after.maxSessions = before.maxSessions
  bounded : 0 < before.maxSessions → before.sessions.len ≤ before.maxSessions →
    after.sessions.len ≤ before.maxSessions
  /-- A new session has counted nothing. -/
  fresh : ∀ key info, after.sessions.get key = some info → op.registersNew before key →
    info.counters = .zero
  /-- Another session was stored before and has counted what the operation reports for it. It
  was live, unless the operation is not addressed to it and leaves it as it was. -/
  carried : ∀ key info, after.sessions.get key = some info → ¬ op.registersNew before key →
    ∃ old, before.sessions.get key = some old
      ∧ info.counters = (op.updatesOf key).foldl Counters.add old.counters
      ∧ ((op.key ≠ some key ∧ info = old) ∨ before.isExpired op.now old = false)
  /-- A session was active at its last registration or update, and at nothing else. -/
  active : ∀ key info, after.sessions.get key = some info →
    if op.touches key then info.lastActivity = op.now
    else ∃ old, before.sessions.get key = some old ∧ info.lastActivity = old.lastActivity
  /-- A session ends because it expired, on request, or by eviction. -/
  ended : ∀ key info, before.sessions.get key = some info →
    after.sessions.get key = none ∨ op.registersNew before key →
      (∃ reading ∈ op.readings, before.isExpired reading info) ∨ op.removes key
        ∨ (∃ created, op.registersNew before created ∧ created ≠ key
            ∧ Evicted before after created info)

/-- `after` holds sessions of `before`; those it lacks satisfy `gone`. -/
structure Prunes (gone : SessionKey → SessionInfo → Prop) (before after : SessionTracker)
    : Prop where
  sameTtl : after.sessionTtlSecs = before.sessionTtlSecs
  sameLimit : after.maxSessions = before.maxSessions
  fewer : after.sessions.len ≤ before.sessions.len
  kept : ∀ key info, after.sessions.get key = some info → before.sessions.get key = some info
  lost : ∀ key info, before.sessions.get key = some info → after.sessions.get key = none →
    gone key info

namespace Prunes

variable {gone : SessionKey → SessionInfo → Prop} {before between after : SessionTracker}

theorem refl (tracker : SessionTracker) : Prunes gone tracker tracker where
  sameTtl := rfl
  sameLimit := rfl
  fewer := Nat.le_refl _
  kept _ _ found := found
  lost key info found absent := by
    rw [found] at absent
    cases absent

theorem trans (first : Prunes gone before between) (second : Prunes gone between after)
    : Prunes gone before after where
  sameTtl := second.sameTtl.trans first.sameTtl
  sameLimit := second.sameLimit.trans first.sameLimit
  fewer := second.fewer.trans first.fewer
  kept key info found := first.kept key info (second.kept key info found)
  lost key info found absent := by
    cases held : between.sessions.get key with
    | none => exact first.lost key info found held
    | some other =>
      have same := first.kept key other held
      rw [found] at same
      exact second.lost key info (by rw [held, same]) absent

theorem mono {wider} (prunes : Prunes gone before after)
    (weaker : ∀ key info, before.sessions.get key = some info → gone key info → wider key info)
    : Prunes wider before after :=
  { prunes with
    lost := fun key info found absent => weaker key info found (prunes.lost key info found absent) }

theorem remove (tracker : SessionTracker) (key : SessionKey)
    : Prunes (fun other _ => other = key) tracker
        { tracker with sessions := tracker.sessions.remove key } where
  sameTtl := rfl
  sameLimit := rfl
  fewer := len_remove_le ..
  kept other info found := of_get_remove found
  lost other info found absent := by
    by_contra distinct
    rw [get_remove_ne _ distinct, found] at absent
    cases absent

theorem isExpired_eq (prunes : Prunes gone before after) (now : Nat) (info : SessionInfo)
    : after.isExpired now info = before.isExpired now info := by
  rw [isExpired, isExpired, ttl, ttl, prunes.sameTtl]

end Prunes

namespace SessionTracker

variable (tracker : SessionTracker) (now : Nat)

theorem get_cleanupExpired (key : SessionKey)
    : (tracker.cleanupExpired now).sessions.get key
      = (tracker.sessions.get key).filter fun info => !tracker.isExpired now info :=
  get_retain ..

theorem cleanupExpired_prunes
    : Prunes (fun _ info => tracker.isExpired now info) tracker (tracker.cleanupExpired now) where
  sameTtl := rfl
  sameLimit := rfl
  fewer := len_retain_le ..
  kept key info found := by
    rw [get_cleanupExpired, filter_eq_some_iff] at found
    exact found.1
  lost key info found absent := by
    rw [get_cleanupExpired, found, filter_some] at absent
    simpa using absent

/-- A session that is still stored after a cleanup had not expired. -/
theorem live_of_cleanupExpired {key info}
    (found : (tracker.cleanupExpired now).sessions.get key = some info)
    : tracker.sessions.get key = some info ∧ tracker.isExpired now info = false := by
  rw [get_cleanupExpired, filter_eq_some_iff] at found
  simpa using found

theorem cleanupPeriodically_prunes (clock : RegisterClock)
    : Prunes (fun _ info => tracker.isExpired clock.cleanup info) tracker
        (tracker.cleanupPeriodically clock) := by
  unfold cleanupPeriodically
  split
  · split
    · exact { tracker.cleanupExpired_prunes clock.cleanup with }
    · exact .refl tracker
  · exact .refl tracker

variable (key : SessionKey)

theorem dropExpired_prunes
    : Prunes (fun other info => other = key ∧ tracker.isExpired now info) tracker
        (tracker.dropExpired now key) := by
  unfold dropExpired
  split
  case isTrue expired =>
    refine (Prunes.remove tracker key).mono ?_
    rintro other info found rfl
    rw [found, any_some] at expired
    exact ⟨rfl, expired⟩
  case isFalse => exact .refl tracker

/-- The session that an operation on a key goes on with is live. -/
theorem live_of_dropExpired {info}
    (found : (tracker.dropExpired now key).sessions.get key = some info)
    : tracker.isExpired now info = false := by
  unfold dropExpired at found
  split at found
  case isTrue =>
    rw [get_remove_self] at found
    cases found
  case isFalse live =>
    rw [found, any_some] at live
    exact Bool.eq_false_iff.mpr live

end SessionTracker

variable {op : Operation}

/-- An operation that only takes sessions away, for a reason that it may have. -/
theorem Step.of_prunes {gone before after}
    (prunes : Prunes gone before after) (creates : ∀ key, op.registersNew before key = false)
    (quiet : ∀ key, after.sessions.get key ≠ none → op.touches key = false)
    (live : ∀ key info, after.sessions.get key = some info →
      op.key ≠ some key ∨ before.isExpired op.now info = false)
    (reason : ∀ key info, gone key info →
      (∃ reading ∈ op.readings, before.isExpired reading info) ∨ op.removes key)
    : Step before op after where
  sameTtl := prunes.sameTtl
  sameLimit := prunes.sameLimit
  bounded _ within := prunes.fewer.trans within
  fresh key info _ created := by
    rw [creates key] at created
    cases created
  carried key info found _ := by
    refine ⟨info, prunes.kept key info found, ?_, (live key info found).imp_left (⟨·, rfl⟩)⟩
    have untouched := quiet key (by rw [found]; exact some_ne_none info)
    rw [Operation.updatesOf_of_touches untouched, foldl_nil]
  active key info found := by
    rw [quiet key (by rw [found]; exact some_ne_none info)]
    exact ⟨info, prunes.kept key info found, rfl⟩
  ended key info found gone := by
    rcases gone with absent | created
    · rcases reason key info (prunes.lost key info found absent) with expired | removed
      · exact .inl expired
      · exact .inr (.inl removed)
    · rw [creates key] at created
      cases created

/-- The cleanup at the start of an operation that only reads. -/
theorem Step.of_cleanup {tracker now} (creates : ∀ key, op.registersNew tracker key = false)
    (quiet : ∀ key, op.touches key = false) (reads : now ∈ op.readings) (instant : op.now = now)
    : Step tracker op (tracker.cleanupExpired now) := by
  refine .of_prunes (tracker.cleanupExpired_prunes now) creates (fun key _ => quiet key) ?_
    fun _ _ expired => .inl ⟨now, reads, expired⟩
  intro key info found
  rw [instant]
  exact .inr (tracker.live_of_cleanupExpired now found).2

theorem remove_step (tracker : SessionTracker) (src : SocketAddr) (protocol : Str)
    (destination : SessionDestination)
    : Step tracker (.remove src protocol destination)
      (tracker.remove src protocol destination) := by
  refine .of_prunes (Prunes.remove tracker _) (fun _ => rfl) (fun _ _ => rfl) ?_ ?_
  · intro key info found
    refine .inl fun addressed => ?_
    cases addressed
    rw [SessionTracker.remove, get_remove_self] at found
    cases found
  · intro key info same
    exact .inr (decide_eq_true same.symm)

/-- An operation that changes a live session, after expired ones were taken away. -/
theorem Step.of_change {before opened key session changed}
    (prunes : Prunes (fun _ info => ∃ reading ∈ op.readings, before.isExpired reading info)
      before opened) (held : opened.sessions.get key = some session)
    (live : before.isExpired op.now session = false)
    (creates : ∀ other, op.registersNew before other = false) (addressed : op.key = some key)
    (counts : changed.counters = (op.updatesOf key).foldl Counters.add session.counters)
    (active : changed.lastActivity = if op.touches key then op.now else session.lastActivity)
    (others : ∀ other, other ≠ key → op.touches other = false)
    : Step before op { opened with sessions := opened.sessions.insert key changed } := by
  refine ⟨prunes.sameTtl, prunes.sameLimit, ?_, ?_, ?_, ?_, ?_⟩
  · intro _ within
    rw [len_insert_of_some held]
    exact prunes.fewer.trans within
  · intro other info _ created
    rw [creates other] at created
    cases created
  · intro other info found _
    rw [get_insert] at found
    split at found
    case isTrue same =>
      subst same
      cases found
      exact ⟨session, prunes.kept _ _ held, counts, .inr live⟩
    case isFalse distinct =>
      have elsewhere : op.key ≠ some other := by
        rw [addressed]
        exact fun same => distinct (some.inj same).symm
      refine ⟨info, prunes.kept other info found, ?_, .inl ⟨elsewhere, rfl⟩⟩
      rw [Operation.updatesOf_of_touches (others other distinct), foldl_nil]
  · intro other info found
    rw [get_insert] at found
    split at found
    case isTrue same =>
      subst same
      cases found
      split
      case isTrue touched => rw [active, if_pos touched]
      case isFalse quiet => exact ⟨session, prunes.kept _ _ held, by rw [active, if_neg quiet]⟩
    case isFalse distinct =>
      rw [others other distinct]
      exact ⟨info, prunes.kept other info found, rfl⟩
  · intro other info found gone
    rcases gone with absent | created
    · rw [get_insert] at absent
      split at absent
      · cases absent
      · exact .inl (prunes.lost other info found absent)
    · rw [creates other] at created
      cases created

/-- A change to the live session of a key.
Witness: the expired session is pruned, and the change is to the session of that key only.
-/
theorem modifyLive_step {tracker} (op : Operation) {key change}
    (creates : ∀ other, op.registersNew tracker other = false) (reads : op.now ∈ op.readings)
    (addressed : op.key = some key) (others : ∀ other, other ≠ key → op.touches other = false)
    (counts : ∀ info, (change info).counters = (op.updatesOf key).foldl Counters.add info.counters)
    (active : ∀ info,
      (change info).lastActivity = if op.touches key then op.now else info.lastActivity)
    : Step tracker op (tracker.modifyLive op.now key change) := by
  have prunes : Prunes (fun _ info => ∃ reading ∈ op.readings, tracker.isExpired reading info)
      tracker (tracker.dropExpired op.now key) :=
    (tracker.dropExpired_prunes op.now key).mono fun _ _ _ gone => ⟨op.now, reads, gone.2⟩
  unfold modifyLive
  cases held : (tracker.dropExpired op.now key).sessions.get key with
  | none =>
    simp only [held]
    refine .of_prunes prunes creates ?_ ?_ fun _ _ gone => .inl gone
    · intro other stored
      exact others other fun same => stored (by rw [same, held])
    · intro other info found
      refine .inl fun same => ?_
      rw [← some.inj (addressed.symm.trans same), held] at found
      cases found
  | some session =>
    simp only [held]
    exact .of_change prunes held (tracker.live_of_dropExpired op.now key held) creates
      addressed (counts session) (active session) others

/-- Making room for a new session: either there is room, or the session that was active least
recently is removed.
Witness: a full tracker with a limit holds a session, so that the minimum exists.
-/
theorem enforceSessionCapacity_cases (order : IterOrder (SessionKey × SessionInfo))
    (sessions : Sessions) (maxSessions : Nat)
    : enforceSessionCapacity order sessions maxSessions = sessions
        ∧ (maxSessions = 0 ∨ sessions.len < maxSessions)
      ∨ ∃ key info, enforceSessionCapacity order sessions maxSessions = sessions.remove key
        ∧ sessions.get key = some info ∧ 0 < maxSessions ∧ maxSessions ≤ sessions.len
        ∧ ∀ other stored, sessions.get other = some stored →
            info.lastActivity ≤ stored.lastActivity := by
  unfold enforceSessionCapacity
  by_cases room : maxSessions = 0 ∨ sessions.len < maxSessions
  · rw [if_pos room]
    exact .inl ⟨rfl, room⟩
  · rw [if_neg room]
    obtain ⟨limited, full⟩ := not_or.mp room
    have listed : ∀ entry, entry ∈ order.run sessions.toPairs ↔ entry ∈ sessions.toPairs :=
      fun _ => (order.perm _).mem_iff
    have size : (order.run sessions.toPairs).length = sessions.len := by
      rw [(order.perm _).length_eq, length_toPairs]
    cases least : (order.run sessions.toPairs).argmin fun entry => entry.2.lastActivity with
    | none =>
      rw [argmin_eq_none.mp least, length_nil] at size
      omega
    | some oldest =>
      refine .inr ⟨oldest.1, oldest.2, rfl, ?_, by omega, by omega, ?_⟩
      · have member := (listed oldest).mp (argmin_mem least)
        exact mem_toPairs.mp member
      · intro other stored found
        have member := (listed (other, stored)).mpr (mem_toPairs.mpr found)
        exact le_of_mem_argmin (f := fun entry : SessionKey × SessionInfo =>
          entry.2.lastActivity) member least

/-- The tracker in which a registration looks for its session: expired sessions are gone. -/
theorem opened_prunes (tracker : SessionTracker) (clock : RegisterClock) (key : SessionKey)
    : Prunes (fun _ info => ∃ reading ∈ [clock.now, clock.cleanup], tracker.isExpired reading info)
        tracker ((tracker.cleanupPeriodically clock).dropExpired clock.now key) := by
  have cleaned := tracker.cleanupPeriodically_prunes clock
  have dropped := (tracker.cleanupPeriodically clock).dropExpired_prunes clock.now key
  refine (cleaned.mono ?_).trans (dropped.mono ?_)
  · intro _ info _ expired
    exact ⟨clock.cleanup, by simp, expired⟩
  · intro _ info _ gone
    rw [cleaned.isExpired_eq] at gone
    exact ⟨clock.now, by simp, gone.2⟩

/-- Storing a new session, after making room for it. -/
theorem Step.of_creation {before opened key order created}
    (prunes : Prunes (fun _ info => ∃ reading ∈ op.readings, before.isExpired reading info)
      before opened) (absent : opened.sessions.get key = none) (zero : created.counters = .zero)
    (active : created.lastActivity = op.now) (addressed : op.key = some key)
    (creates : ∀ other, op.registersNew before other ↔ other = key)
    (touched : ∀ other, op.touches other = (key = other : Bool))
    : Step before op
        { opened with
          sessions :=
            (enforceSessionCapacity order opened.sessions opened.maxSessions).insert key
                created } := by
  have room := enforceSessionCapacity_cases order opened.sessions opened.maxSessions
  generalize enforceSessionCapacity order opened.sessions opened.maxSessions = kept at room
  have stays : ∀ other info, kept.get other = some info →
      opened.sessions.get other = some info := by
    intro other info found
    rcases room with ⟨rfl, _⟩ | ⟨victim, _, rfl, _⟩
    · exact found
    · exact of_get_remove found
  have vacant : kept.get key = none := by
    cases found : kept.get key with
    | none => rfl
    | some info =>
      rw [stays key info found] at absent
      cases absent
  refine ⟨prunes.sameTtl, prunes.sameLimit, ?_, ?_, ?_, ?_, ?_⟩
  · intro limited within
    have fewer := prunes.fewer
    have limit := prunes.sameLimit
    rw [len_insert_of_none vacant]
    rcases room with ⟨rfl, unlimited | below⟩ | ⟨victim, info, rfl, stored, _, full, _⟩
    · omega
    · omega
    · have shrinks := len_remove_of_some stored
      omega
  · intro other info found new
    rw [(creates other).mp new, get_insert_self] at found
    cases found
    exact zero
  · intro other info found old
    have distinct : other ≠ key := fun same => old ((creates other).mpr same)
    rw [get_insert_ne _ distinct] at found
    have elsewhere : op.key ≠ some other := by
      rw [addressed]
      exact fun same => distinct (some.inj same).symm
    refine ⟨info, prunes.kept other info (stays other info found), ?_, .inl ⟨elsewhere, rfl⟩⟩
    have quiet : op.touches other = false := by
      rw [touched, decide_eq_false distinct.symm]
    rw [Operation.updatesOf_of_touches quiet, foldl_nil]
  · intro other info found
    rw [get_insert] at found
    split at found
    case isTrue same =>
      cases found
      rw [touched, decide_eq_true same.symm]
      exact active
    case isFalse distinct =>
      rw [touched, decide_eq_false (Ne.symm distinct)]
      exact ⟨info, prunes.kept other info (stays other info found), rfl⟩
  · intro other info found gone
    -- a session that the pruning left can only have been the victim
    cases pruned : opened.sessions.get other with
    | none => exact .inl (prunes.lost other info found pruned)
    | some same =>
      have distinct : other ≠ key := by
        rintro rfl
        rw [absent] at pruned
        cases pruned
      have lost : kept.get other = none := by
        rcases gone with lost | new
        · rwa [get_insert_ne _ distinct] at lost
        · exact absurd ((creates other).mp new) distinct
      rcases room with ⟨rfl, _⟩ | ⟨victim, least, rfl, stored, limited, full, oldest⟩
      · rw [lost] at pruned
        cases pruned
      · obtain rfl : other = victim := by
          by_contra apart
          rw [get_remove_ne _ apart, pruned] at lost
          cases lost
        have before := prunes.kept other least stored
        rw [found] at before
        cases before
        refine .inr (.inr ⟨key, (creates key).mpr rfl, distinct.symm, ?_, ?_, ?_⟩)
        · rwa [prunes.sameLimit] at limited
        · rw [prunes.sameLimit] at full
          exact full.trans prunes.fewer
        · intro third staying apart here
          rw [get_insert_ne _ apart] at here
          exact oldest third staying (stays third staying here)

theorem register_step (tracker : SessionTracker) (clock : RegisterClock)
    (order : IterOrder (SessionKey × SessionInfo)) (startedAt : Str) (src : SocketAddr)
    (destination : SessionDestination) (listener protocol : Str)
    : Step tracker (.register clock order startedAt src destination listener protocol)
        (tracker.register clock order startedAt src destination listener protocol).1 := by
  have cleaned := tracker.cleanupPeriodically_prunes clock
  have prunes := opened_prunes tracker clock (sessionKey src destination protocol)
  cases held : ((tracker.cleanupPeriodically clock).dropExpired clock.now
      (sessionKey src destination protocol)).sessions.get (sessionKey src destination protocol) with
  | some session =>
    have live := live_of_dropExpired _ _ _ held
    rw [cleaned.isExpired_eq] at live
    have old : ∀ other, (Operation.register clock order startedAt src destination listener
        protocol).registersNew tracker other = false := by
      intro other
      simp [Operation.registersNew, register, held]
    simp only [register, held]
    refine .of_change prunes held live old rfl rfl ?_ fun _ distinct =>
      decide_eq_false distinct.symm
    rw [Operation.touches, decide_eq_true rfl]
    rfl
  | none =>
    have new : ∀ other, (Operation.register clock order startedAt src destination listener
        protocol).registersNew tracker other ↔ other = sessionKey src destination protocol := by
      intro other
      simp only [Operation.registersNew, register, held, Bool.and_true,
        decide_eq_true_eq]
      exact eq_comm
    simp only [register, held]
    exact .of_creation prunes held rfl rfl rfl new fun _ => rfl

/-- Every operation is a step. -/
theorem perform_step (tracker : SessionTracker) (op : Operation)
    : Step tracker op (perform tracker op) := by
  cases op with
  | register clock order startedAt src destination listener protocol =>
    exact register_step tracker clock order startedAt src destination listener protocol
  | updateBytes now src protocol destination received sent =>
    refine modifyLive_step (.updateBytes now src protocol destination received sent)
      (fun _ => rfl) (mem_singleton_self now) rfl ?_ ?_ ?_
    · intro other distinct
      exact decide_eq_false distinct.symm
    · intro info
      rw [Operation.updatesOf, if_pos rfl]
      rfl
    · intro info
      rw [Operation.touches, decide_eq_true rfl]
      rfl
  | setProcess now src protocol destination name pid =>
    exact modifyLive_step (.setProcess now src protocol destination name pid)
      (fun _ => rfl) (mem_singleton_self now) rfl (fun _ _ => rfl) (fun _ => rfl) (fun _ => rfl)
  | remove src protocol destination => exact remove_step tracker src protocol destination
  | cleanup now order | getProcess now src protocol destination
  | getOriginalDest now src protocol destination
  | getDestinationForPort now order src protocol dstPort | activeCount now =>
    exact .of_cleanup (fun _ => rfl) (fun _ => rfl) (mem_singleton_self now) rfl

theorem run_concat (tracker : SessionTracker) (history : List Operation) (op : Operation)
    : run tracker (history ++ [op]) = perform (run tracker history) op := by
  rw [run, foldl_append]
  rfl

/-- The counters of a session are the saturated sums of the updates after the registration
that created it. -/
def CountsSinceRegistration (tracker : SessionTracker) (history : List Operation)
    (key : SessionKey) (info : SessionInfo) : Prop :=
  ∃ earlier created later, history = earlier ++ created :: later
    ∧ created.registersNew (run tracker earlier) key
    ∧ (∀ between next rest, later = between ++ next :: rest →
        ¬ next.registersNew (run tracker (earlier ++ created :: between)) key)
    ∧ info.bytesReceived = min ((later.flatMap (·.updatesOf key)).map Prod.fst).sum u64Max
    ∧ info.bytesSent = min ((later.flatMap (·.updatesOf key)).map Prod.snd).sum u64Max
    ∧ info.packets = min (later.flatMap (·.updatesOf key)).length u64Max

/-- The same law with the counters added up one update at a time. -/
def AddsSinceRegistration (tracker : SessionTracker) (history : List Operation)
    (key : SessionKey) (info : SessionInfo) : Prop :=
  ∃ earlier created later, history = earlier ++ created :: later
    ∧ created.registersNew (run tracker earlier) key
    ∧ (∀ between next rest, later = between ++ next :: rest →
        ¬ next.registersNew (run tracker (earlier ++ created :: between)) key)
    ∧ info.counters = (later.flatMap (·.updatesOf key)).foldl Counters.add .zero

variable {info : SessionInfo}

theorem AddsSinceRegistration.counts {tracker history key}
    (adds : AddsSinceRegistration tracker history key info)
    : CountsSinceRegistration tracker history key info := by
  obtain ⟨earlier, created, later, split, new, last, counters⟩ := adds
  rw [foldl_add_zero, SessionInfo.counters, Counters.mk.injEq] at counters
  exact ⟨earlier, created, later, split, new, last, counters⟩

/-- One more operation keeps the law.
Witness: the operation either registers the session anew, so that nothing follows it, or
extends the operations after the registration. -/
theorem AddsSinceRegistration.step {tracker history key}
    (law : ∀ old, (run tracker history).sessions.get key = some old →
      AddsSinceRegistration tracker history key old)
    (found : (run tracker (history ++ [op])).sessions.get key = some info)
    : AddsSinceRegistration tracker (history ++ [op]) key info := by
  rw [run_concat] at found
  have step := perform_step (run tracker history) op
  by_cases new : op.registersNew (run tracker history) key
  · refine ⟨history, op, [], rfl, new, ?_, step.fresh key info found new⟩
    intro between next rest impossible
    cases between <;> cases impossible
  · obtain ⟨old, stored, counters, _⟩ := step.carried key info found new
    obtain ⟨earlier, created, later, split, first, last, sum⟩ := law old stored
    refine ⟨earlier, created, later ++ [op], by rw [split]; simp, first, ?_, ?_⟩
    · intro between next rest divided
      rcases eq_nil_or_concat rest with rfl | ⟨rest, final, rfl⟩
      · obtain ⟨rfl, same⟩ := append_inj' divided rfl
        cases same
        rwa [← split]
      · rw [concat_eq_append, ← cons_append, ← append_assoc] at divided
        obtain ⟨same, _⟩ := append_inj' divided rfl
        exact last between next rest same
    · rw [counters, sum, flatMap_append, foldl_append]
      simp

/-- The law of the counters holds for every session of a tracker that started empty. -/
theorem run_addsSinceRegistration {tracker} (start : tracker.sessions = .empty)
    (history : List Operation) {key} (found : (run tracker history).sessions.get key = some info)
    : AddsSinceRegistration tracker history key info := by
  induction history using reverseRecOn generalizing info with
  | nil =>
    rw [run, foldl_nil, start, get_empty] at found
    cases found
  | append_singleton history op ih =>
      exact AddsSinceRegistration.step (fun _ stored => ih stored) found

/-- The limit stays as it is, and a tracker within it stays within it. -/
theorem run_bounded {tracker} (limited : 0 < tracker.maxSessions)
    (within : tracker.sessions.len ≤ tracker.maxSessions) (history : List Operation)
    : (run tracker history).sessions.len ≤ tracker.maxSessions := by
  induction history generalizing tracker with
  | nil => exact within
  | cons op history ih =>
    have step := perform_step tracker op
    have kept := step.bounded limited within
    have limit := step.sameLimit
    have later : (run (perform tracker op) history).sessions.len
        ≤ (perform tracker op).maxSessions :=
      ih (by omega) (by omega)
    rwa [limit] at later

/-- What the lookups of a tracker return is read from live sessions. -/
structure ReturnsLive (tracker : SessionTracker) : Prop where
  process : ∀ now src protocol destination answer,
    (tracker.getProcess now src protocol destination).2 = some answer →
      ∃ info, tracker.sessions.get (sessionKey src destination protocol) = some info
        ∧ tracker.isExpired now info = false ∧ answer = (info.processName, info.processPid)
  originalDest : ∀ now src protocol destination answer,
    (tracker.getOriginalDest now src protocol destination).2 = some answer →
      ∃ info, tracker.sessions.get (sessionKey src destination protocol) = some info
        ∧ tracker.isExpired now info = false ∧ answer = (info.dstIp, info.dstPort)
  destinationForPort : ∀ now order src protocol dstPort answer,
    (tracker.getDestinationForPort now order src protocol dstPort).2 = some answer →
      ∃ key info, tracker.sessions.get key = some info ∧ tracker.isExpired now info = false
        ∧ answer = ⟨info.dstIp, info.dstPort⟩

theorem returnsLive (tracker : SessionTracker) : ReturnsLive tracker where
  process now src protocol destination answer returned := by
    obtain ⟨info, found, rfl⟩ := map_eq_some_iff.mp returned
    obtain ⟨kept, live⟩ := tracker.live_of_cleanupExpired now found
    exact ⟨info, kept, live, rfl⟩
  originalDest now src protocol destination answer returned := by
    obtain ⟨info, found, rfl⟩ := map_eq_some_iff.mp returned
    obtain ⟨kept, live⟩ := tracker.live_of_cleanupExpired now found
    exact ⟨info, kept, live, rfl⟩
  destinationForPort now order src protocol dstPort answer returned := by
    simp only [getDestinationForPort] at returned
    split at returned
    case h_1 key info only =>
      cases returned
      have member : (key, info) ∈ order.run (tracker.cleanupExpired now).sessions.toPairs :=
        mem_of_mem_filter (by rw [only]; exact mem_singleton_self _)
      have found := mem_toPairs.mp ((order.perm _).mem_iff.mp member)
      obtain ⟨kept, live⟩ := tracker.live_of_cleanupExpired now found
      exact ⟨key, info, kept, live, rfl⟩
    case h_2 => cases returned

/-- Two addresses of a peer stand for the same sessions. -/
structure SamePeer (tracker : SessionTracker) (left right : SocketAddr) : Prop where
  key : ∀ destination protocol,
    sessionKey left destination protocol = sessionKey right destination protocol
  register : ∀ clock order startedAt destination listener protocol,
    tracker.register clock order startedAt left destination listener protocol
      = tracker.register clock order startedAt right destination listener protocol
  destinationForPort : ∀ now order protocol dstPort,
    tracker.getDestinationForPort now order left protocol dstPort
      = tracker.getDestinationForPort now order right protocol dstPort

theorem samePeer_of_normalized (tracker : SessionTracker) {left right}
    (ip : normalizeSessionIp left.ip = normalizeSessionIp right.ip) (port : left.port = right.port)
    : SamePeer tracker left right := by
  have destinationIp : ∀ text, normalizeSessionDestinationIpForPeer left text
      = normalizeSessionDestinationIpForPeer right text := by
    intro text
    rw [normalizeSessionDestinationIpForPeer, normalizeSessionDestinationIpForPeer,
      unknownSessionDestinationIpForPeer, unknownSessionDestinationIpForPeer, ip]
  have key : ∀ destination protocol,
      sessionKey left destination protocol = sessionKey right destination protocol := by
    intro destination protocol
    rw [sessionKey, sessionKey, ip, port, destinationIp]
  refine ⟨key, ?_, ?_⟩
  · intro clock order startedAt destination listener protocol
    simp only [register, key, destinationIp]
  · intro now order protocol dstPort
    simp only [getDestinationForPort, ip, port]

/-- A registration leaves a session of its key that was active just now. -/
theorem register_stores (tracker : SessionTracker) (clock : RegisterClock)
    (order : IterOrder (SessionKey × SessionInfo)) (startedAt : Str) (src : SocketAddr)
    (destination : SessionDestination) (listener protocol : Str)
    : ∃ info, (tracker.register clock order startedAt src destination listener
          protocol).1.sessions.get (sessionKey src destination protocol) = some info
        ∧ info.listener = listener ∧ info.lastActivity = clock.now := by
  rw [register]
  dsimp only
  split <;> exact ⟨_, get_insert_self .., rfl, rfl⟩

/-- Over every history of a tracker that started empty: its sessions are within the limit, have
counted the updates since their registration, end only when they expired, on request or as the
least recently active of a full tracker, and are neither changed nor returned once they have
expired. Registrations and updates are what makes a session active, and a registration stores a
session of its key or refreshes the one that there is. An IPv4-mapped address of a peer stands for
the sessions of its IPv4 address. -/
theorem session_history_contract (tracker : SessionTracker) (start : tracker.sessions = .empty)
    (history : List Operation)
    : (0 < tracker.maxSessions → (run tracker history).sessions.len ≤ tracker.maxSessions)
      ∧ (∀ key info, (run tracker history).sessions.get key = some info →
          CountsSinceRegistration tracker history key info)
      ∧ (∀ op key info, (run tracker history).sessions.get key = some info →
          (perform (run tracker history) op).sessions.get key = none
            ∨ op.registersNew (run tracker history) key →
          (∃ reading ∈ op.readings, (run tracker history).isExpired reading info) ∨ op.removes key
            ∨ (∃ created, op.registersNew (run tracker history) created ∧ created ≠ key
                ∧ Evicted (run tracker history) (perform (run tracker history) op) created info))
      ∧ (∀ op key info, (perform (run tracker history) op).sessions.get key = some info →
          ¬ op.registersNew (run tracker history) key →
          ∃ old, (run tracker history).sessions.get key = some old
            ∧ ((op.key ≠ some key ∧ info = old)
                ∨ (run tracker history).isExpired op.now old = false))
      ∧ (∀ op key info, (perform (run tracker history) op).sessions.get key = some info →
          if op.touches key then info.lastActivity = op.now
          else ∃ old, (run tracker history).sessions.get key = some old
            ∧ info.lastActivity = old.lastActivity)
      ∧ (∀ clock order startedAt src destination listener protocol, ∃ info,
          (perform (run tracker history) (.register clock order startedAt src destination listener
              protocol)).sessions.get (sessionKey src destination protocol) = some info
          ∧ info.listener = listener ∧ info.lastActivity = clock.now)
      ∧ ReturnsLive (run tracker history)
      ∧ (∀ mapped ip port, mapped.toIpv4Mapped = some ip →
          SamePeer (run tracker history) ⟨.v6 mapped, port⟩ ⟨.v4 ip, port⟩) := by
  refine ⟨?_, ?_, ?_, ?_, ?_, ?_, returnsLive _, ?_⟩
  · intro limited
    apply run_bounded limited
    rw [start]
    exact Nat.zero_le _
  · intro key info found
    exact (run_addsSinceRegistration start history found).counts
  · intro op key info found gone
    exact (perform_step (run tracker history) op).ended key info found gone
  · intro op key info found old
    obtain ⟨before, stored, _, live⟩ :=
      (perform_step (run tracker history) op).carried key info found old
    exact ⟨before, stored, live⟩
  · exact fun op => (perform_step (run tracker history) op).active
  · exact register_stores (run tracker history)
  · intro mapped ip port isMapped
    apply samePeer_of_normalized
    · simp [normalizeSessionIp, isMapped]
    · rfl

section Samples

/-- An empty tracker for two sessions. -/
def pairTracker : SessionTracker :=
  { SessionTracker.new 0 with maxSessions := 2 }

def samplePeer (port : UInt16) : SocketAddr :=
  ⟨.v4 (.new 10 0 0 5), port⟩

def sampleDestination : SessionDestination :=
  ⟨ascii "9.9.9.9", 53⟩

def sampleKey (port : UInt16) : SessionKey :=
  sessionKey (samplePeer port) sampleDestination (ascii "UDP")

def sampleRegistration (port : UInt16) (now : Nat) : Operation :=
  .register ⟨now, now, now, now, now⟩ (.stored _) (ascii "start") (samplePeer port)
    sampleDestination (ascii "dns") (ascii "UDP")

/-- Two sessions, and two updates of the first one, the latter for the peer's mapped address. -/
def sampleHistory : List Operation :=
  [sampleRegistration 1 10, sampleRegistration 2 20,
    .updateBytes 30 (samplePeer 1) (ascii "UDP") sampleDestination 5 7,
    .updateBytes 40 ⟨.v6 (.ofGroups [0, 0, 0, 0, 0, 0xffff, 0x0a00, 5]), 1⟩ (ascii "udp")
      sampleDestination 1 2]

/-- The session of a port at the end of the history. -/
def sampleInfo (lastActivity bytesSent bytesReceived packets : Nat) : SessionInfo :=
  ⟨ascii "9.9.9.9", 53, ascii "dns", none, none, ascii "start", lastActivity, bytesSent,
    bytesReceived, packets⟩

/-- The second session is the least recently active one when a third one is registered. The first
one has counted both updates, and an update that comes after an hour finds it expired. -/
theorem session_history_contract_sample
    : (run pairTracker (sampleHistory ++ [sampleRegistration 3 50])).sessions.len ≤ 2
      ∧ ((run pairTracker sampleHistory).sessions.get (sampleKey 1) = some (sampleInfo 40 9 6 2)
        ∧ CountsSinceRegistration pairTracker sampleHistory (sampleKey 1) (sampleInfo 40 9 6 2))
      ∧ ((run pairTracker sampleHistory).sessions.get (sampleKey 2) = some (sampleInfo 20 0 0 0)
        ∧ ∃ created, created ≠ sampleKey 2
            ∧ Evicted (run pairTracker sampleHistory)
                (perform (run pairTracker sampleHistory) (sampleRegistration 3 50)) created
                (sampleInfo 20 0 0 0))
      ∧ ∃ reading ∈ [fromSecs 3601], (run pairTracker sampleHistory).isExpired reading
          (sampleInfo 40 9 6 2) := by
  have limited := (session_history_contract pairTracker rfl
    (sampleHistory ++ [sampleRegistration 3 50])).1 (by decide)
  obtain ⟨-, counts, ends, -⟩ := session_history_contract pairTracker rfl sampleHistory
  have first : (run pairTracker sampleHistory).sessions.get (sampleKey 1)
      = some (sampleInfo 40 9 6 2) := by
    decide +kernel
  have second : (run pairTracker sampleHistory).sessions.get (sampleKey 2)
      = some (sampleInfo 20 0 0 0) := by
    decide +kernel
  refine ⟨limited, ⟨first, counts _ _ first⟩, ⟨second, ?_⟩, ?_⟩
  · rcases ends (sampleRegistration 3 50) _ _ second (.inl (by decide +kernel)) with
      ⟨reading, member, expired⟩ | removed | ⟨created, -, distinct, evicted⟩
    · have live : ∀ reading ∈ (sampleRegistration 3 50).readings,
          (run pairTracker sampleHistory).isExpired reading (sampleInfo 20 0 0 0) = false := by
        decide +kernel
      rw [live reading member] at expired
      cases expired
    · cases removed
    · exact ⟨created, distinct, evicted⟩
  · rcases ends (.updateBytes (fromSecs 3601) (samplePeer 1) (ascii "UDP") sampleDestination 1 1) _
        _ first (.inl (by decide +kernel)) with expired | removed | ⟨created, new, -⟩
    · exact expired
    · cases removed
    · cases new

end Samples

end NetTrap.Session
