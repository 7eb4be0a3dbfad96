import Mathlib.Data.List.Flatten
import NetTrap.Redis.Batches
import NetTrap.Redis.RoundTrip

/-! Pipelining: commands in one call or in two.
Everything that one command leaves for the next is kept in the connection, so that a call is
the run of its commands and runs compose. Only the limits of the parser, which are limits on a
call, tell the two apart.
-/

namespace NetTrap.Redis

open Access Rust RedisHandler List

/-- Commands as a client writes them, one after the other. -/
def encodeCommands (commands : List (List Bytes)) : Bytes :=
  commands.flatMap encodeCommand

/-- The commands that one call may have. -/
structure WithinLimits (commands : List (List Bytes)) : Prop where
  count : commands.length ≤ maxRespCommands
  arguments : ∀ args ∈ commands, args.length ≤ maxRespArrayCount
  bulks : ∀ args ∈ commands, ∀ arg ∈ args, arg.length ≤ maxRespBulkSize
  frame : (encodeCommands commands).length ≤ maxRespFrameSize

variable {handler : RedisHandler} {self : Connection} {first second : List (List Bytes)}

theorem encodeCommands_append (first second : List (List Bytes))
    : encodeCommands (first ++ second) = encodeCommands first ++ encodeCommands second :=
  flatMap_append

theorem WithinLimits.sublist (within : WithinLimits second) (kept : first <+ second)
    : WithinLimits first where
  count := kept.length_le.trans within.count
  arguments args member := within.arguments args (kept.subset member)
  bulks args member := within.bulks args (kept.subset member)
  frame := (kept.flatMap encodeCommand).length_le.trans within.frame

/-- What a client writes is arrays, whatever the number of commands. -/
theorem respArray_encodeCommand {args} (nonempty : args ≠ [])
    (few : args.length ≤ maxRespArrayCount) (small : ∀ arg ∈ args, arg.length ≤ maxRespBulkSize)
    : RespArray args (encodeCommand args) := by
  have limit : maxRespArrayCount ≤ usizeMax := by decide
  exact ⟨nonempty, few, _, _, spells_numeral (by omega), bulkStrings_flatMap small, rfl⟩

theorem WithinLimits.parseResp (within : WithinLimits first)
    (nonempty : ∀ args ∈ first, args ≠ [])
    : Redis.parseResp (encodeCommands first) = .done (some first) := by
  have written : ∀ args ∈ first, RespArray args (encodeCommand args) := by
    intro args member
    exact respArray_encodeCommand (nonempty args member) (within.arguments args member)
      (within.bulks args member)
  rw [encodeCommands, parseResp_arrays written within.frame, if_pos within.count]

/-- The run of commands is the run of its two parts. -/
theorem runCommands_append (handler : RedisHandler) (self : Connection)
    (first second : List (List Bytes))
    : runCommands handler self (first ++ second)
      = ((runCommands handler (runCommands handler self first).1 second).1,
          (runCommands handler self first).2
            ++ (runCommands handler (runCommands handler self first).1 second).2) := by
  induction first generalizing self with
  | nil => rfl
  | cons parts first ih =>
    by_cases closed : self.state = .disconnected
    · rw [runCommands_of_disconnected handler closed, runCommands_of_disconnected handler closed,
        runCommands_of_disconnected handler closed]
      rfl
    · rw [cons_append]
      cases parts with
      | nil =>
        rw [runCommands, if_neg closed, runCommands, if_neg closed]
        exact ih self
      | cons name args =>
        rw [runCommands_cons handler closed, runCommands_cons handler closed, ih]
        rfl

/-- A call within the limits is the run of its commands, also on a closed connection. -/
theorem handle_encodeCommands (handler : RedisHandler) (self : Connection)
    (within : WithinLimits first) (filled : first ≠ []) (nonempty : ∀ args ∈ first, args ≠ [])
    : handleCommandWithAuthState handler self (encodeCommands first)
      = .done ((runCommands handler self first).1, (runCommands handler self first).2.flatten) := by
  by_cases closed : self.state = .disconnected
  · rw [handleCommandWithAuthState_of_disconnected handler closed,
      runCommands_of_disconnected handler closed]
    rfl
  · exact handleCommandWithAuthState_eq handler closed (within.parseResp nonempty) filled nonempty

/-- Commands in one call, or in two calls one after the other: the same connection afterwards,
and the same replies. -/
theorem redis_pipelining_transparent (handler : RedisHandler) (self : Connection)
    (first second : List (List Bytes)) (someFirst : first ≠ []) (someSecond : second ≠ [])
    (nonempty : ∀ args ∈ first ++ second, args ≠ []) (within : WithinLimits (first ++ second))
    : ∃ middle last reply more,
        handleCommandWithAuthState handler self (encodeCommands first) = .done (middle, reply)
        ∧ handleCommandWithAuthState handler middle (encodeCommands second) = .done (last, more)
        ∧ handleCommandWithAuthState handler self (encodeCommands first ++ encodeCommands second)
          = .done (last, reply ++ more) := by
  have left : ∀ args ∈ first, args ≠ [] :=
    fun args member => nonempty args (List.mem_append_left _ member)
  have right : ∀ args ∈ second, args ≠ [] :=
    fun args member => nonempty args (List.mem_append_right _ member)
  refine ⟨_, _, _, _, handle_encodeCommands handler self (within.sublist (sublist_append_left _ _))
      someFirst left,
    handle_encodeCommands handler _ (within.sublist (sublist_append_right _ _)) someSecond right,
    ?_⟩
  rw [← encodeCommands_append, handle_encodeCommands handler self within
    (List.append_ne_nil_of_left_ne_nil someFirst second) nonempty, runCommands_append,
    List.flatten_append]

section Samples

/-- `QUIT`, written many times. -/
def quits (count : Nat) : List (List Bytes) :=
  List.replicate count [ascii "QUIT"]

theorem length_encodeCommands_quits (count : Nat)
    : (encodeCommands (quits count)).length = 14 * count := by
  have one : (encodeCommand [ascii "QUIT"]).length = 14 := by decide +kernel
  induction count with
  | zero => rfl
  | succ count ih =>
    rw [encodeCommands] at ih ⊢
    rw [quits, replicate_succ, flatMap_cons, length_append, one]
    rw [quits] at ih
    omega

theorem eq_of_mem_quits {count args} (member : args ∈ quits count) : args = [ascii "QUIT"] :=
  eq_of_mem_replicate member

theorem quits_withinLimits {count : Nat} (few : count ≤ maxRespCommands)
    : WithinLimits (quits count) where
  count := by rwa [quits, length_replicate]
  arguments args member := by
    rw [eq_of_mem_quits member]
    decide
  bulks args member := by
    rw [eq_of_mem_quits member]
    decide
  frame := by
    have limit : 14 * maxRespCommands ≤ maxRespFrameSize := by decide
    rw [length_encodeCommands_quits]
    omega

/-- The first `QUIT` closes the connection, and the others are not read. -/
theorem runCommands_quits (count : Nat)
    : runCommands (.bare false) (bare false).new (quits (count + 1))
      = ({ (bare false).new with state := .disconnected }, [okReply]) := by
  have opened : (bare false).new.state ≠ .disconnected := by decide
  have handled : handleParts (.bare false) (bare false).new (ascii "QUIT") []
      = ({ (bare false).new with state := .disconnected }, some okReply) := by
    decide +kernel
  rw [quits, replicate_succ, runCommands_cons _ opened, handled, runCommands_of_disconnected _ rfl]
  rfl

theorem redis_pipelining_transparent_quit
    : ∃ middle last reply more,
        handleCommandWithAuthState (.bare false) (RedisHandler.bare false).new
            (encodeCommands (quits 1)) = .done (middle, reply)
        ∧ handleCommandWithAuthState (.bare false) middle (encodeCommands (quits 1))
          = .done (last, more)
        ∧ handleCommandWithAuthState (.bare false) (RedisHandler.bare false).new
            (encodeCommands (quits 1) ++ encodeCommands (quits 1)) = .done (last, reply ++ more) :=
  redis_pipelining_transparent (.bare false) _ (quits 1) (quits 1) (by decide) (by decide)
    (by decide) (show WithinLimits (quits 2) from quits_withinLimits (by decide))

/-- More commands than one call may have: two calls close the connection, one call is refused
and leaves it open. -/
theorem redis_pipelining_overfull
    : WithinLimits (quits 600) ∧ (∃ middle last reply more,
          handleCommandWithAuthState (.bare false) (RedisHandler.bare false).new
              (encodeCommands (quits 600)) = .done (middle, reply)
          ∧ handleCommandWithAuthState (.bare false) middle (encodeCommands (quits 600))
            = .done (last, more)
          ∧ last.state = .disconnected ∧ reply ++ more = okReply)
      ∧ handleCommandWithAuthState (.bare false) (RedisHandler.bare false).new
          (encodeCommands (quits 600) ++ encodeCommands (quits 600))
        = .done ((RedisHandler.bare false).new, protocolError) := by
  have within : WithinLimits (quits 600) := quits_withinLimits (by decide)
  have nonempty : ∀ count, ∀ args ∈ quits count, args ≠ [] := by
    intro count args member
    rw [eq_of_mem_quits member]
    decide
  have filled : quits 600 ≠ [] := List.cons_ne_nil _ (quits 599)
  refine ⟨within, ⟨_, _, _, _, handle_encodeCommands _ _ within filled (nonempty 600),
    handle_encodeCommands _ _ within filled (nonempty 600), ?_, ?_⟩, ?_⟩
  · rw [runCommands_quits, runCommands_of_disconnected _ rfl]
  · rw [runCommands_quits, runCommands_of_disconnected _ rfl]
    rfl
  · have all : quits 600 ++ quits 600 = quits 1200 := List.replicate_append_replicate
    have length := length_encodeCommands_quits 1200
    have filled : (encodeCommands (quits 1200)).isEmpty = false := by
      rw [← Bool.not_eq_true, List.isEmpty_iff_length_eq_zero]
      omega
    have refused : parseResp (encodeCommands (quits 1200)) = .done none := by
      have limit : maxRespFrameSize = 1048576 := rfl
      rw [encodeCommands] at length ⊢
      rw [parseResp_arrays _ (by omega), quits, List.length_replicate, if_neg (by decide)]
      intro args member
      rw [eq_of_mem_quits member]
      exact respArray_encodeCommand (by decide) (by decide) (by decide)
    rw [← encodeCommands_append, all, handleCommandWithAuthState, if_neg (by decide), refused]
    simp only [Exec.done_bind, filled, Bool.false_eq_true, if_false]
    rfl

end Samples

end NetTrap.Redis
