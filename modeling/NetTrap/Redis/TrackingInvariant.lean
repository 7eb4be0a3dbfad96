import NetTrap.Redis.Batches

/-! Client tracking over whole connections.
Every command keeps the tracking fields consistent. A `CLIENT TRACKING` command that fails
leaves them as they were, but for a caching flag, which the next command uses up.
-/

namespace NetTrap.Redis

open Access Rust List

/-- What the tracking fields of a connection always satisfy. -/
structure TrackingInvariant (tracking : Tracking) : Prop where
  /-- No prefix is a prefix of another. -/
  disjoint : tracking.prefixes.Pairwise fun left right => ¬ left <+: right ∧ ¬ right <+: left
  few : tracking.prefixes.length ≤ maxClientTrackingPrefixes
  short : ∀ text ∈ tracking.prefixes, text.length ≤ maxClientTrackingPrefixBytes
  exclusive : ¬ (tracking.optin = true ∧ tracking.optout = true)
  cachingYes : tracking.caching = some true → tracking.enabled = true ∧ tracking.optin = true
  cachingNo : tracking.caching = some false → tracking.enabled = true ∧ tracking.optout = true
  redirect : tracking.redirect = -1 ↔ tracking.enabled = false

theorem trackingInvariant_disabled : TrackingInvariant .disabled where
  disjoint := .nil
  few := Nat.zero_le _
  short _ member := absurd member not_mem_nil
  exclusive both := by cases both.1
  cachingYes impossible := by cases impossible
  cachingNo impossible := by cases impossible
  redirect := by decide

theorem TrackingInvariant.clearCaching {tracking} (invariant : TrackingInvariant tracking)
    : TrackingInvariant { tracking with caching := none } :=
  { invariant with
    cachingYes := fun impossible => by cases impossible
    cachingNo := fun impossible => by cases impossible }

theorem prefixesOverlap_eq_false {left right}
    : prefixesOverlap left right = false ↔ ¬ left <+: right ∧ ¬ right <+: left := by
  rw [prefixesOverlap, Bool.or_eq_false_iff, Bool.eq_false_iff, Bool.eq_false_iff, ne_eq, ne_eq,
    isPrefixOf_iff_prefix, isPrefixOf_iff_prefix, and_comm]

section Options

/-- What the options of `CLIENT TRACKING ON` satisfy at every point of the loop. -/
structure OptionsInvariant (read : TrackingOptions) : Prop where
  exclusive : ¬ (read.optin = true ∧ read.optout = true)
  redirect : read.redirect = 0
  few : read.prefixes.length ≤ maxClientTrackingPrefixes
  short : ∀ text ∈ read.prefixes, text.length ≤ maxClientTrackingPrefixBytes

theorem readRedirect_eq {value redirect} (read : readRedirect value = .ok redirect)
    : redirect = 0 := by
  rw [readRedirect] at read
  split at read
  · cases read
  split at read
  · cases read
  next number _ valid =>
  cases read
  exact if_pos (by omega)

theorem addPrefix_invariant {read added value} (invariant : OptionsInvariant read)
    (accepted : addPrefix read value = .ok added)
    : OptionsInvariant added := by
  rw [addPrefix] at accepted
  split at accepted
  · cases accepted
  next small =>
  split at accepted
  · cases accepted
  next room =>
  cases accepted
  refine { invariant with few := ?_, short := ?_ }
  · simp
    omega
  · intro text member
    rcases mem_append.mp member with member | member
    · exact invariant.short text member
    · rw [mem_singleton.mp member]
      omega

theorem readTrackingOptions_invariant {read result options} (invariant : OptionsInvariant read)
    (finished : readTrackingOptions read options = .ok result)
    : OptionsInvariant result := by
  fun_induction readTrackingOptions read options with
  | case1 =>
    cases finished
    exact invariant
  | case5 _ _ _ _ _ _ _ _ _ ih =>
    obtain ⟨redirect, accepted, later⟩ := bind_eq_ok_iff.mp finished
    exact ih redirect { invariant with redirect := readRedirect_eq accepted } later
  | case8 _ _ _ _ _ _ _ _ _ ih =>
    obtain ⟨added, accepted, later⟩ := bind_eq_ok_iff.mp finished
    exact ih added (addPrefix_invariant invariant accepted) later
  | case9 _ _ _ _ _ _ ih => exact ih { invariant with } finished
  | case10 _ _ _ _ _ _ ih | case11 _ _ _ _ _ _ ih =>
    exact ih { invariant with exclusive := by simp } finished
  | case12 _ _ _ _ _ _ ih => exact ih { invariant with } finished
  | case2 | case3 | case4 | case6 | case7 | case13 => cases finished

/-- Prefixes without overlap, within the limits. -/
structure PrefixesInvariant (prefixes : List Str) : Prop where
  disjoint : prefixes.Pairwise fun left right => ¬ left <+: right ∧ ¬ right <+: left
  few : prefixes.length ≤ maxClientTrackingPrefixes
  short : ∀ text ∈ prefixes, text.length ≤ maxClientTrackingPrefixBytes

section

variable {existing added merged} (invariant : PrefixesInvariant existing)
include invariant

theorem mergePrefixes_invariant (short : ∀ text ∈ added, text.length ≤ maxClientTrackingPrefixBytes)
    (finished : mergePrefixes existing added = .ok merged)
    : PrefixesInvariant merged := by
  induction added generalizing existing with
  | nil =>
    cases finished
    exact invariant
  | cons first added ih =>
    rw [mergePrefixes] at finished
    split at finished
    · cases finished
    next clear =>
    split at finished
    · cases finished
    next room =>
    refine ih ⟨?_, ?_, ?_⟩ (fun text member => short text (.tail _ member)) finished
    · rw [pairwise_append]
      refine ⟨invariant.disjoint, pairwise_singleton _ _, ?_⟩
      intro left member right last
      rw [mem_singleton.mp last]
      rw [Bool.not_eq_true, any_eq_false] at clear
      exact prefixesOverlap_eq_false.mp (Bool.eq_false_iff.mpr (clear left member))
    · simp
      omega
    · intro text member
      rcases mem_append.mp member with member | member
      · exact invariant.short text member
      · rw [mem_singleton.mp member]
        exact short first mem_cons_self

theorem broadcastPrefixes_invariant
    (short : ∀ text ∈ added, text.length ≤ maxClientTrackingPrefixBytes)
    (finished : broadcastPrefixes existing added = .ok merged)
    : PrefixesInvariant merged := by
  rw [broadcastPrefixes] at finished
  split at finished
  · cases finished
  obtain ⟨joined, joins, later⟩ := bind_eq_ok_iff.mp finished
  have kept := mergePrefixes_invariant invariant short joins
  split at later
  · cases later
  cases later
  rw [orEmptyPrefix]
  split
  · exact ⟨pairwise_singleton _ _, by decide, by simp⟩
  · exact kept

end

theorem trackingOn_invariant {tracking changed options} (invariant : TrackingInvariant tracking)
    (finished : trackingOn tracking options = .ok changed)
    : TrackingInvariant changed := by
  obtain ⟨read, readAll, later⟩ := bind_eq_ok_iff.mp finished
  obtain ⟨prefixes, chosen, last⟩ := bind_eq_ok_iff.mp later
  cases last
  have options := readTrackingOptions_invariant
    ⟨by simp, rfl, Nat.zero_le _, fun _ member => absurd member not_mem_nil⟩ readAll
  have before : PrefixesInvariant tracking.prefixes :=
    ⟨invariant.disjoint, invariant.few, invariant.short⟩
  have after : PrefixesInvariant prefixes := by
    rw [chosenPrefixes] at chosen
    split at chosen
    · exact broadcastPrefixes_invariant before options.short chosen
    · cases chosen
      exact before
  exact
    { disjoint := after.disjoint
      few := after.few
      short := after.short
      exclusive := options.exclusive
      cachingYes := fun impossible => by cases impossible
      cachingNo := fun impossible => by cases impossible
      redirect := by simp [options.redirect] }

theorem trackingChange_invariant {tracking changed args} (invariant : TrackingInvariant tracking)
    (finished : trackingChange tracking args = .ok changed)
    : TrackingInvariant changed := by
  cases args with
  | nil => cases finished
  | cons mode options =>
    rw [trackingChange] at finished
    split at finished
    · cases finished
    split at finished
    · exact trackingOn_invariant invariant finished
    split at finished
    · split at finished
      · cases finished
        exact trackingInvariant_disabled
      · cases finished
    · cases finished

end Options

section Commands

variable {self : Connection}

section

variable (invariant : TrackingInvariant self.tracking) (rest : List Bytes)
include invariant rest

theorem clientTrackingResponse_invariant
    : TrackingInvariant (clientTrackingResponse self rest).1.tracking := by
  rw [clientTrackingResponse]
  split
  next changed finished => exact trackingChange_invariant invariant finished
  next => exact invariant

/-- A caching flag is set only while tracking is enabled in the mode that it belongs to. -/
theorem clientCaching_invariant : TrackingInvariant (clientCaching self rest).1.tracking := by
  fun_cases clientCaching self rest with
  | case5 _ mode _ isYes isNo known enabled yes no =>
    simp only [Bool.or_eq_true, Bool.not_eq_true', not_or, Bool.not_eq_false] at enabled
    simp only [Bool.and_eq_true, Bool.not_eq_true', not_and, Bool.not_eq_false] at yes no
    refine { invariant with cachingYes := ?_, cachingNo := ?_ }
    · intro set
      exact ⟨enabled.1, yes (Option.some.inj set)⟩
    · intro set
      rw [Option.some.inj set, Bool.false_or] at known
      exact ⟨enabled.1, no known⟩
  | _ => exact invariant

end

/-- The other subcommands leave tracking alone. -/
theorem clientSetname_tracking (rest : List Bytes)
    : (clientSetname self rest).1.tracking = self.tracking := by
  unfold clientSetname
  split
  · split <;> rfl
  · rfl

theorem clientSetinfo_tracking (rest : List Bytes)
    : (clientSetinfo self rest).1.tracking = self.tracking := by
  unfold clientSetinfo
  split
  · split
    · rfl
    · split
      · rfl
      · split_ifs <;> rfl
  · rfl

theorem clientReply_tracking (rest : List Bytes)
    : (clientReply self rest).1.tracking = self.tracking := by
  unfold clientReply
  split
  · split
    · rfl
    · split_ifs <;> rfl
  · rfl

theorem clientSwitch_tracking {set command invalidMode}
    (kept : ∀ value, (set value).tracking = self.tracking) (rest : List Bytes)
    : (clientSwitch self set command invalidMode rest).1.tracking = self.tracking := by
  unfold clientSwitch
  split
  · split
    · rfl
    · split_ifs
      · exact kept true
      · exact kept false
      · rfl
  · rfl

theorem clientNoEvict_tracking (rest : List Bytes)
    : (clientNoEvict self rest).1.tracking = self.tracking := by
  unfold clientNoEvict
  apply clientSwitch_tracking
  intro value
  rfl

theorem clientNoTouch_tracking (rest : List Bytes)
    : (clientNoTouch self rest).1.tracking = self.tracking := by
  unfold clientNoTouch
  apply clientSwitch_tracking
  intro value
  rfl

theorem clientResponse_invariant (invariant : TrackingInvariant self.tracking) (args : List Bytes)
    : TrackingInvariant (clientResponse self args).1.tracking := by
  cases args with
  | nil => exact invariant
  | cons subcommand rest =>
    rw [clientResponse]
    split
    · exact invariant
    split
    case h_4 => exact clientCaching_invariant invariant rest
    case h_5 => exact clientTrackingResponse_invariant invariant rest
    case h_1 =>
      rw [clientSetname_tracking]
      exact invariant
    case h_2 =>
      rw [clientSetinfo_tracking]
      exact invariant
    case h_3 =>
      rw [clientReply_tracking]
      exact invariant
    case h_7 =>
      rw [clientNoEvict_tracking]
      exact invariant
    case h_8 =>
      rw [clientNoTouch_tracking]
      exact invariant
    all_goals exact invariant

theorem helloResponse_tracking (args : List Bytes) (version : Str)
    : (helloResponse self args version).1.tracking = self.tracking := by
  unfold helloResponse
  split
  · rfl
  split
  · rfl
  split
  · rfl
  split <;> rfl

theorem execute_invariant (handler : RedisHandler) (invariant : TrackingInvariant self.tracking)
    (cmd : Str) (args : List Bytes)
    : TrackingInvariant (execute handler self cmd args).1.tracking := by
  rw [execute]
  split
  · rw [helloResponse_tracking]
    exact invariant
  · exact invariant
  · rw [handleResetCommand]
    split
    · exact invariant
    · exact trackingInvariant_disabled
  · split <;> exact invariant
  · exact clientResponse_invariant invariant args
  · exact invariant

/-- What follows a command uses up the caching flag, or leaves tracking as it is. -/
theorem epilogue_tracking (before after : Connection) (kind : CommandKind) (args : List Bytes)
    : (epilogue before after kind args).tracking
      = if before.tracking.caching.isSome && !isClientCommand kind args "CACHING" then
          { after.tracking with caching := none }
        else after.tracking := by
  simp only [epilogue, setCaching]
  split <;> split <;> rfl

theorem handleParts_invariant (handler : RedisHandler) (name : Bytes) (args : List Bytes)
    (invariant : TrackingInvariant self.tracking)
    : TrackingInvariant (handleParts handler self name args).1.tracking := by
  rw [handleParts]
  split
  · exact invariant
  next cmd _ =>
  simp only
  split
  · exact invariant
  have executed := execute_invariant handler invariant (handler.toUppercase cmd) args
  rw [epilogue_tracking]
  split
  · exact executed.clearCaching
  · exact executed

end Commands

/-- The command is `CLIENT TRACKING`, under the upper-case name `cmd`. -/
structure IsTrackingCommand (handler : RedisHandler) (name : Bytes) (args : List Bytes) (cmd : Str)
    : Prop where
  named : ∃ text, textCommand name = some text ∧ handler.toUppercase text = cmd
  client : CommandKind.ofText cmd = .client
  tracking : ∃ subcommand rest text, args = subcommand :: rest ∧ textCommand subcommand = some text
    ∧ ClientSubcommand.ofText text = .tracking

/-- Error replies start with a minus sign. -/
def IsError (reply : Bytes) : Prop :=
  reply.head? = some 45

theorem length_of_eqIgnoreAsciiCase {left right} (same : eqIgnoreAsciiCase left right = true)
    : left.length = right.length := by
  have lengths := congrArg length (beq_iff_eq.mp same)
  rwa [length_map, length_map] at lengths

/-- `CLIENT TRACKING` is not `CLIENT CACHING`: the words differ in length. -/
theorem not_caching_of_tracking {text} (tracking : ClientSubcommand.ofText text = .tracking)
    : eqIgnoreAsciiCase text (ascii "CACHING") = false := by
  rw [Bool.eq_false_iff]
  intro same
  have length : text.length = 7 := length_of_eqIgnoreAsciiCase same
  have spelled : (toAsciiUppercase text, .tracking) ∈ ClientSubcommand.names := by
    rw [ClientSubcommand.ofText] at tracking
    cases found : ClientSubcommand.names.find? fun entry => entry.1 = toAsciiUppercase text with
    | none =>
      rw [found] at tracking
      cases tracking
    | some entry =>
      have named : entry.1 = toAsciiUppercase text := by simpa using find?_some found
      rw [found] at tracking
      rw [← named, ← show entry.2 = .tracking from tracking]
      exact mem_of_find?_eq_some found
  have longer : ∀ entry ∈ ClientSubcommand.names, entry.2 = .tracking → entry.1.length = 8 := by
    decide
  have eight := longer _ spelled rfl
  rw [toAsciiUppercase, length_map, length] at eight
  cases eight

theorem clientTrackingResponse_error {self rest}
    (failed : IsError (clientTrackingResponse self rest).2)
    : (clientTrackingResponse self rest).1 = self := by
  rw [clientTrackingResponse] at failed ⊢
  split at failed
  · cases failed
  next => rfl

/-- A failed `CLIENT TRACKING` only uses up a pending caching flag. -/
theorem handleParts_failed_tracking {handler self name args cmd}
    (command : IsTrackingCommand handler name args cmd)
    (executed : refused handler self .client args = false)
    (failed : IsError (execute handler self cmd args).2)
    : (handleParts handler self name args).1.tracking = { self.tracking with caching := none } := by
  obtain ⟨⟨text, isText, rfl⟩, client, subcommand, rest, option, rfl, isOption, tracking⟩ := command
  have response : execute handler self (handler.toUppercase text) (subcommand :: rest)
      = clientTrackingResponse self rest := by
    simp only [execute, client, clientResponse, isOption, tracking]
  have notCaching : isClientCommand .client (subcommand :: rest) "CACHING" = false := by
    simp [isClientCommand, isOption, not_caching_of_tracking tracking]
  rw [response] at failed
  rw [handleParts, isText]
  simp only [client, executed, Bool.false_eq_true, if_false, response,
    epilogue_tracking, notCaching, clientTrackingResponse_error failed]
  cases pending : self.tracking.caching with
  | none =>
    rw [if_neg (by simp), ← pending]
  | some flag => rw [if_pos (by simp)]

/-- Over every sequence of calls: the tracking fields are consistent, and a `CLIENT TRACKING`
command that comes next and fails leaves them as they are, but for a pending caching flag; one
stopped at the gate leaves that, too. -/
theorem redis_tracking_invariant (handler : RedisHandler) (authenticated : Bool)
    (calls : List Bytes)
    : ∃ last replies, handleCalls handler { handler.new with authenticated := authenticated } calls
          = .done (last, replies)
        ∧ TrackingInvariant last.tracking
        ∧ ∀ name args cmd, IsTrackingCommand handler name args cmd →
            (refused handler last .client args = true →
              handleParts handler last name args = (last, some noAuthReply))
            ∧ (refused handler last .client args = false →
                IsError (execute handler last cmd args).2 →
                (handleParts handler last name args).1.tracking
                  = { last.tracking with caching := none }) := by
  have start : TrackingInvariant
      ({ handler.new with authenticated := authenticated } : Connection).tracking :=
    trackingInvariant_disabled
  obtain ⟨last, replies, finished, invariant⟩ := handleCalls_invariant handler
    (TrackingInvariant ·.tracking) (fun _ name args => handleParts_invariant handler name args)
    calls start
  refine ⟨last, replies, finished, invariant, ?_⟩
  intro name args cmd command
  refine ⟨?_, handleParts_failed_tracking command⟩
  intro stopped
  obtain ⟨⟨text, isText, rfl⟩, client, _⟩ := command
  rw [handleParts, isText]
  simp only [client, stopped, if_true]

/-- The calls `CLIENT TRACKING ON OPTIN` and `CLIENT CACHING YES`. -/
def cachingCalls : List Bytes :=
  [ascii "*4\r\n$6\r\nCLIENT\r\n$8\r\nTRACKING\r\n$2\r\nON\r\n$5\r\nOPTIN\r\n",
    ascii "*3\r\n$6\r\nCLIENT\r\n$7\r\nCACHING\r\n$3\r\nYES\r\n"]

def cachingConnection : Connection :=
  { (RedisHandler.bare false).new with
    tracking :=
      { Tracking.disabled with
        enabled := true
        optin := true
        redirect := 0
        caching := some true } }

/-- The failing `CLIENT TRACKING FOO` clears the caching flag. -/
theorem failed_tracking_clears_caching
    : handleCalls (.bare false) (RedisHandler.bare false).new cachingCalls
        = .done (cachingConnection, [okReply, okReply])
      ∧ handleCommandWithAuthState (.bare false) cachingConnection
          (ascii "*3\r\n$6\r\nCLIENT\r\n$8\r\nTRACKING\r\n$3\r\nFOO\r\n")
        = .done (setCaching cachingConnection none, syntaxError)
      ∧ setCaching cachingConnection none ≠ cachingConnection := by
  decide +kernel

end NetTrap.Redis
